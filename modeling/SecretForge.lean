import SecretForge.Config.Write
import SecretForge.Log.Message
import SecretForge.Main
import SecretForge.Proofs.Config.RoundTrip
import SecretForge.Proofs.Redaction
import SecretForge.Proofs.Store.Refinement
import SecretForge.Proofs.Update.Accounting
import SecretForge.Store.Recorder
import SecretForge.Proofs.Expansion.Literal
import SecretForge.Proofs.Store.FailedUpload
import SecretForge.Proofs.Store.Interleaving
import SecretForge.Proofs.Expansion.Validity
import SecretForge.Proofs.Update.Forecast
import SecretForge.Proofs.CommandLine.Secrecy
import SecretForge.Proofs.Config.Fault
import SecretForge.Proofs.Expansion.Loaded
import SecretForge.Proofs.Store.Commutation
import SecretForge.Proofs.Update.Repetition
import SecretForge.Proofs.CommandLine.Lifecycle
import SecretForge.Proofs.Expansion.Fault
import SecretForge.Proofs.Update.Composition
import SecretForge.Proofs.Store.Name
import SecretForge.Proofs.Redaction.Delimited
import SecretForge.Proofs.Config.Violation
import SecretForge.Proofs.Config.Shape
import SecretForge.Proofs.Yaml.Double
import SecretForge.Proofs.Config.Declaration
import SecretForge.Proofs.Store.Economy
import SecretForge.Proofs.CommandLine.Credentials
import SecretForge.Proofs.Config.Mapping

import SecretForge.CommandLine.Options

/-!
# What the command line says of itself

The usage of the tool, its help and its version, and the report of a command line that is wrong.
-/

namespace SecretForge.CommandLine

def unlines (ls : List String) : String := String.join (ls.map (· ++ "\n"))

def toolName : String := "ci-secret-generator"

def version : String := s!"{toolName} 0.1.0\n"

def usage : String := unlines [
    "usage: ci-secret-generator [-h] [--version] [--dry-run | --no-dry-run]",
    "                           [--dry-run-output DRY_RUN_OUTPUT] [--config CONFIG]",
    "                           [--credentials-path CREDENTIALS_PATH]",
    "                           [--project-id PROJECT_ID] [--log-level LOG_LEVEL]",
    "                           [--concurrency CONCURRENCY]"]

/-- The help: how the tool is used, its options, its exit codes and its environment. -/
def help : String := usage ++ "\n" ++ unlines [
    "Generate secret values with shell commands and upload them to GCP Secret",
    "Manager",
    "",
    "options:",
    "  -h, --help            show this help message and exit",
    "  --version             show program's version number and exit",
    "  --dry-run, --no-dry-run",
    "                        Write intended operations to a file instead of",
    "                        uploading (default: enabled)",
    "  --dry-run-output DRY_RUN_OUTPUT",
    "                        File that receives dry-run operations (default: a new",
    "                        temporary file)",
    "  --config CONFIG       Path to the YAML config describing the secret items",
    "  --credentials-path CREDENTIALS_PATH",
    "                        Path to the service account JSON key used for Secret",
    "                        Manager",
    "  --project-id PROJECT_ID",
    "                        GCP project ID (defaults to the service account's",
    "                        project, then GCP_PROJECT, then gcloud config)",
    "  --log-level LOG_LEVEL",
    "                        Log level is one of debug, info, warning, error,",
    "                        critical",
    "  --concurrency CONCURRENCY",
    "                        Maximum number of concurrent requests to the secret",
    "                        store",
    "",
    "Exit codes: 0 - Success 1 - Runtime error (unreadable files, invalid config,",
    "failed commands or uploads) 2 - Usage error (missing or invalid flags)",
    "Environment variables: GCP_PROJECT - GCP project ID (used when --project-id is",
    "not given and the service account file names no project)"]

def UsageFault.report (f : UsageFault) : String := usage ++ s!"{toolName}: error: {f.message}\n"

end SecretForge.CommandLine

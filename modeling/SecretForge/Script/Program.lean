import SecretForge.Script.Program.Compute
import SecretForge.Script.Program.Edit
import SecretForge.Script.Program.Encode
import SecretForge.Script.Program.Order
import SecretForge.Script.Program.Pattern
import SecretForge.Script.Program.Place
import SecretForge.Script.Program.Surround
import SecretForge.Script.Program.Translate

/-!
# The command language: programs

Programs read their input and their files and write their output; they leave nothing behind in the
session of the shell.

* `program?` is the program of a name.
-/

namespace SecretForge.Script

open SecretForge.Text

def programs : List Program :=
  [Digest.digestProgram "md5sum" Digest.md5, Digest.digestProgram "sha1sum" Digest.sha1,
    Digest.digestProgram "sha256sum" Digest.sha256, Digest.digestProgram "sha512sum" Digest.sha512,
    Encode.base64, Encode.od, Excerpt.cat, Excerpt.cut, Excerpt.head, Excerpt.paste, Excerpt.rev,
    Excerpt.tac, Excerpt.tail, Excerpt.tee, Compute.date, Edit.sed, Order.seq, Order.sort, Order.uniq,
    Order.wc, Pattern.grep, Place.basename, Place.cp, Place.dirname, Place.ls, Place.mkdir, Place.mv,
    Place.rm, Place.rmdir, Place.touch, Surround.id_, Surround.printenv, Surround.sleep, Surround.uname,
    Surround.which, Surround.yes, Translate.tr]

/-- The arguments of `seq`: its options end before a number below zero. -/
def endOptions : List Octets → List Octets
  | ['-', '-'] :: rest => ['-', '-'] :: rest
  | ['-', 's'] :: value :: rest => ['-', 's'] :: value :: endOptions rest
  | ['-', 'f'] :: value :: rest => ['-', 'f'] :: value :: endOptions rest
  | ('-' :: c :: cs) :: rest =>
    if c.isDigit || c = '.' then ['-', '-'] :: ('-' :: c :: cs) :: rest
    else ('-' :: c :: cs) :: endOptions rest
  | args => args

def program? (h : Hooks) (name : String) : Option (List Octets → Run Nat) :=
  match name with
  | "bash" | "sh" => some (Surround.runShellProgram h name)
  | "env" => some (Surround.env h).call
  | "xargs" => some (Surround.xargs h).call
  | "expr" => some Compute.runExpr
  | "true" => some fun _ => return 0
  | "false" => some fun _ => return 1
  | "whoami" => some fun _ => do
    sayLines [text "root"]
    return 0
  | "head" => some fun args => Excerpt.head.call (Excerpt.newerForm args)
  | "tail" => some fun args => Excerpt.tail.call (Excerpt.newerForm args)
  | "seq" => some fun args => Order.seq.call (endOptions args)
  | _ => (programs.find? (·.name = name)).map Program.call

end SecretForge.Script

import SecretForge.Command
import SecretForge.Script.Execute

/-!
# The shell that runs generator commands

A command of a template is a script of its own: it is run in the directory of the files, with an empty
input, and its output and errors are one stream.

* `shell` is the shell over the files that commands see and change.
-/

namespace SecretForge.Script

open SecretForge.Text

/-- The environment that every script has. -/
def environment : List (String × String) :=
  [("HOME", "/root"), ("LC_ALL", "C.UTF-8"), ("PATH", "/usr/local/bin:/usr/bin:/bin"), ("SHLVL", "1"),
    ("TZ", "UTC")]

/-- How an ended script answers: its status, or the number of the signal that ended it below zero. -/
def Ending.answer (output : Octets) : Ending → ShellAnswer
  | .status n => .ended (Octets.toBytes output) n
  | .signal n => .ended (Octets.toBytes output) (-(n : Int))

/-- The shell.  A command with a zero byte cannot be handed to it. -/
def shell : Shell Files where
  run command files :=
    if command.toList.contains (Char.ofNat 0) then (.notRun "embedded null byte", files)
    else
      let vars := environment ++ [("PWD", "/" ++ String.intercalate "/" files.here)]
      let (output, ending, left) := runScript vars (Octets.ofString command) files
      (ending.answer output, left)

end SecretForge.Script

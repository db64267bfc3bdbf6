import MixinCatalog.Command.Analyze
import MixinCatalog.Config.Search

/-!
# The command `init`

It writes a configuration with the default settings. A file that is already there is replaced only
if that is asked for; it is emptied before it is written, so a device that has no room for the text
leaves it empty.
-/

namespace MixinCatalog

/-- The configuration file that `init` writes. -/
def Config.defaultText : String :=
  "# mixinmap configuration\n\n"
    ++ "[mixins]\n"
    ++ "# Accept \x60base => \x7b class M extends base \x7b\x7d \x7d\x60"
    ++ " even though nothing is returned\n"
    ++ "implicit_return = true\n\n"
    ++ "[languages]\n"
    ++ "enabled = [\x22javascript\x22, \x22typescript\x22]\n\n"
    ++ "[ignore]\n"
    ++ "patterns = [\n"
    ++ "    \x22**/node_modules/**\x22,\n"
    ++ "    \x22**/dist/**\x22,\n"
    ++ "    \x22**/*.min.js\x22,\n"
    ++ "]\n"

namespace FileSystem

/-- Write a text to a file that is opened for it. The file is there and empty before the text comes,
and stays so if there is no room for it. -/
def writeFile (fs : FileSystem) (full : Place → Bool) (p : Path) (text : String) :
    Except IoError Unit × FileSystem :=
  match fs.create p with
  | .error e => (.error e, fs)
  | .ok (place, opened) =>
    match (openFile (full place) place).write text opened with
    | .error e => (.error e, opened)
    | .ok written => (.ok (), written)

/-- Write the default configuration into a directory, with what there is to report about it. -/
def initConfigLogged (fs : FileSystem) (full : Place → Bool) (dir : Path) (force : Bool) :
    Ended × List Event :=
  let path := dir.join Config.fileName
  if fs.contains path && !force then (⟨.error (.configExists path), fs⟩, [])
  else match fs.writeFile full path Config.defaultText with
    | (.error e, left) => (⟨.error (.write e), left⟩, [])
    | (.ok (), written) => (⟨.ok "", written⟩, [.configCreated path])

def initConfig (fs : FileSystem) (full : Place → Bool) (dir : Path) (force : Bool) : Ended :=
  (fs.initConfigLogged full dir force).1

end FileSystem

end MixinCatalog

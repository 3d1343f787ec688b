import Precis.Settings.Error
import Precis.Text.Blank
import Precis.Text.Integer
import Precis.Text.Utf8

/-!
Contract: settings as the environment holds them.

This module owns the reading of one variable. Variables are bytes. One whose
bytes are not UTF-8 counts as unset. A number is read from the text without the
blanks around it; a variable that is set and holds no number of the range is a
fault that names it.
-/

namespace Precis.Settings

/-- The bytes of each variable that is set. -/
abbrev Environment := String → Option (List UInt8)

/-- The environment that a block of bytes holds: a name, an equals sign, a value
and a zero for each variable. The first of several values of a name counts. -/
def Environment.ofBlock (block : List UInt8) : Environment :=
  let entries := block.splitOn 0
  fun name =>
    let start := Text.Utf8.encode name.toList ++ [0x3d]
    (entries.find? start.isPrefixOf).map fun entry => entry.drop start.length

def text? (environment : Environment) (name : String) : Option String :=
  (environment name).bind fun bytes => (Text.Utf8.decode? bytes).map String.ofList

/-- The text of a variable, unless it is blank. -/
def filledText? (environment : Environment) (name : String) : Option String :=
  (text? environment name).filter fun text => !Text.isBlankText text

/-- The number that a variable holds, or a default where it is unset. -/
def numberOr
    (environment : Environment)
    (name : String)
    (range : Text.IntegerRange)
    (default : Int) : Except Fault Int :=
  match text? environment name with
  | none => .ok default
  | some text =>
      match Text.readInteger range (Text.trim text).toList with
      | .ok number => .ok number
      | .error cause => .error (.invalid name cause.message)

def unsigned32Or
    (environment : Environment)
    (name : String)
    (default : UInt32) : Except Fault UInt32 :=
  (numberOr environment name .unsigned32 default.toNat).map fun number =>
    UInt32.ofNat number.toNat

def unsigned64Or
    (environment : Environment)
    (name : String)
    (default : UInt64) : Except Fault UInt64 :=
  (numberOr environment name .unsigned64 default.toNat).map fun number =>
    UInt64.ofNat number.toNat

def signed64Or
    (environment : Environment)
    (name : String)
    (default : Int64) : Except Fault Int64 :=
  (numberOr environment name .signed64 default.toInt).map Int64.ofInt

end Precis.Settings

/-!
Contract: the names of models.

This module owns the families of models and the models themselves, the one name
that each has in requests and answers, and the reading of such names from a
setting, where the letter case of ASCII letters does not matter.
-/

namespace Precis.Model

/-- Models that share one way of being called. -/
inductive Family where
  | gemini
  | openAi
deriving DecidableEq, Repr

namespace Family

def all : List Family := [.gemini, .openAi]

def name : Family → String
  | .gemini => "gemini"
  | .openAi => "openai"

/-- A text with its ASCII letters in lower case. -/
def lowered (text : String) : String :=
  text.map Char.toLower

def ofText (text : String) : Except String Family :=
  match all.find? fun family => family.name = lowered text with
  | some family => .ok family
  | none => .error ("unknown model family: " ++ lowered text)

end Family

inductive Id where
  | gemini20Flash
  | gemini20FlashLite
  | gemini25Pro
  | gemini25Flash
  | gemini25FlashLite
  | gemini3Flash
deriving DecidableEq, Repr

namespace Id

def all : List Id :=
  [.gemini20Flash, .gemini20FlashLite, .gemini25Pro, .gemini25Flash, .gemini25FlashLite,
    .gemini3Flash]

def name : Id → String
  | .gemini20Flash => "gemini-2.0-flash"
  | .gemini20FlashLite => "gemini-2.0-flash-lite"
  | .gemini25Pro => "gemini-2.5-pro"
  | .gemini25Flash => "gemini-2.5-flash"
  | .gemini25FlashLite => "gemini-2.5-flash-lite"
  | .gemini3Flash => "gemini-3-flash"

def ofText (text : String) : Except String Id :=
  match all.find? fun id => id.name = Family.lowered text with
  | some id => .ok id
  | none => .error ("unknown model: " ++ text)

end Id

end Precis.Model

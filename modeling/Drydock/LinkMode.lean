import Drydock.Text.Blank

/-!
# How the vendored library is linked

Exactly one topology is active in a run:

* `LinkMode.shared` — the foundational module carries one compiled copy of the vendored library and
  every other module links against that module;
* `LinkMode.separate` — every module carries the vendored archive;
* `LinkMode.external` — an installed copy is used and only its directories are recorded.
-/

namespace Drydock

/-- The linking topology of a run. -/
inductive LinkMode where
  | shared
  | separate
  | external
  deriving DecidableEq, Inhabited, Repr

namespace LinkMode

/-- The word for a mode in settings, plans and messages. -/
def word : LinkMode → String
  | shared => "shared"
  | separate => "separate"
  | external => "external"

/-- Reads a mode; blanks around the word and the case of ASCII letters do not count. -/
def ofWord? (s : String) : Option LinkMode :=
  let cs := (Text.trimChars s.toList).map Char.toLower
  [shared, separate, external].find? fun mode => mode.word.toList == cs

/-- Whether the vendored sources are configured and compiled. -/
def buildsVendored : LinkMode → Bool
  | external => false
  | _ => true

/-- Whether a symbol in two modules is a conflict.  In separate mode every module carries its own
copy of the vendored library, so duplicates are expected. -/
def checksSymbols : LinkMode → Bool
  | separate => false
  | _ => true

end LinkMode

end Drydock

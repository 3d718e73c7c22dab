/-!
The tokens of a YAML text. Indentation is made explicit: a block collection starts with a token of
its own and ends with `blockEnd`, and every key of a mapping is announced by `key`.
-/

set_option autoImplicit false
set_option relaxedAutoImplicit false

namespace Toolpath.Yaml

inductive Token where
  /-- The directive that names the version of the language. -/
  | version
  /-- The directive that gives the handle of some tags a meaning. -/
  | handle (name meaning : String)
  | documentStart
  | documentEnd
  | blockListStart
  | blockMappingStart
  | blockEnd
  | flowListStart
  | flowListEnd
  | flowMappingStart
  | flowMappingEnd
  /-- The hyphen before an entry of a block list. -/
  | entry
  /-- The comma between the entries of a flow collection. -/
  | comma
  | key
  | value
  | reference (name : String)
  | anchor (name : String)
  | tag (handle suffix : String)
  /-- A plain scalar may be a number or a word with a meaning; other scalars are strings. -/
  | scalar (plain : Bool) (text : String)
  deriving DecidableEq, Repr

end Toolpath.Yaml

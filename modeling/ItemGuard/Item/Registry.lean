import ItemGuard.Item.Names

/-!
# Resolving tokens to items

A host supplies a registry that answers names with ids. A token is resolved trimmed: a numeral
below 2³², with or without a plus sign, is its own id and reaches no registry, id 0 included; any
other token is a name, and a name answered with id 0 is unknown.
-/

namespace ItemGuard

/-- Answers the name of an item with its id. -/
abbrev Registry := String → Option ItemId

def NameTable.registry (t : NameTable) : Registry :=
  t.find?

namespace Registry

/-- A registry that knows exactly the listed spellings; the last one listed counts. -/
def ofExact (names : List (String × ItemId)) : Registry :=
  fun name => names.reverse.lookup name

/-- The id of a trimmed token. -/
def resolveTrimmed (registry : Registry) (token : List Char) : Option ItemId :=
  match Text.unsigned? ItemId.bound token with
  | some n => some (ItemId.ofNat n)
  | none => (registry (String.ofList token)).filter fun item => !item.isNone

/-- The id that a token stands for. -/
def resolve (registry : Registry) (token : String) : Option ItemId :=
  registry.resolveTrimmed (Text.trim token.toList)

end Registry
end ItemGuard

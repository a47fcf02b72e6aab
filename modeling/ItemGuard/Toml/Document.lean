import ItemGuard.Text.Scan
import ItemGuard.Toml.Scalar
import ItemGuard.Toml.Table

/-!
# Reading TOML

`Document.read` reads a text as TOML 1.0. Arrays and inline tables nest at most 79 levels deep, and
a dotted key has at most 79 parts. A byte order mark at the start of the text is skipped.
-/

namespace ItemGuard.Toml

/-- Reads a part of a document, or says what is wrong with it. -/
abbrev Reads (α : Type) := List Char → Except Fault (α × List Char)

/-- A reader that fails makes the text malformed. -/
def need {α : Type} (read : Reader α) : Reads α := fun cs =>
  match read cs with
  | some r => .ok r
  | none => .error .malformed

/-- Loops over a text that is malformed where they stand still. -/
def loop {σ α : Type} (step : σ → List Char → Except Fault (Text.Step σ α)) (state : σ) : Reads α :=
  Text.scan .malformed step state

/-- The deepest nesting of arrays and inline tables, and the most parts of a key. -/
def maxDepth : Nat := 79

/-- Reads the parts of a key, given those already read, the last one first. -/
def keyStep (parts : List String) (cs : List Char) :
    Except Fault (Text.Step (List String) (List String)) := do
  let (part, rest) ← need simpleKey? (skipBlanks cs)
  match skipBlanks rest with
  | '.' :: rest => .ok (.more (part :: parts) rest)
  | rest => .ok (.done (part :: parts).reverse rest)

/-- Reads a key, which may be dotted. -/
def readKey : Reads (List String) := fun cs => do
  let (parts, rest) ← loop keyStep [] cs
  if maxDepth < parts.length then .error .malformed else .ok (parts, rest)

/-- Reads a key and its value with `=` between them: the path of the key, its last part and the
value. -/
def readEntry (readValue : Reads Value) : Reads (List String × String × Value) := fun cs => do
  let (parts, rest) ← readKey cs
  match parts.getLast?, rest with
  | some key, '=' :: rest =>
    let (value, rest) ← readValue (skipBlanks rest)
    .ok ((parts.dropLast, key, value), rest)
  | _, _ => .error .malformed

/-- Drops the gaps before the next part of an array. -/
def gaps (cs : List Char) : Except Fault (List Char) :=
  match skipGaps false cs with
  | some rest => .ok rest
  | none => .error .malformed

/-- Reads the next element of an array, or its end, given the elements already read, the last one
first. -/
def arrayStep (readValue : Reads Value) (elements : List Value) (cs : List Char) :
    Except Fault (Text.Step (List Value) (List Value)) := do
  match ← gaps cs with
  | ']' :: rest => .ok (.done elements.reverse rest)
  | rest =>
    let (value, rest) ← readValue rest
    match ← gaps rest with
    | ',' :: rest => .ok (.more (value :: elements) rest)
    | ']' :: rest => .ok (.done (value :: elements).reverse rest)
    | _ => .error .malformed

/-- Reads the next entry of an inline table, given those already read. -/
def inlineStep (readValue : Reads Value) (entries : Entries) (cs : List Char) :
    Except Fault (Text.Step Entries Entries) := do
  let ((path, key, value), rest) ← readEntry readValue cs
  let (_, entries) ← addUnder path key value .inline entries
  match skipBlanks rest with
  | ',' :: rest => .ok (.more entries rest)
  | '\x7d' :: rest => .ok (.done entries rest)
  | _ => .error .malformed

/-- Reads a value. `inner` reads the values inside it, if it may contain any. -/
def readValueWith (inner : Option (Reads Value)) : Reads Value
  | '[' :: cs =>
    match inner with
    | none => .error .malformed
    | some readValue => do
      let (elements, rest) ← loop (arrayStep readValue) [] cs
      .ok (.array elements, rest)
  | '\x7b' :: cs =>
    match inner with
    | none => .error .malformed
    | some readValue =>
      match skipBlanks cs with
      | '\x7d' :: rest => .ok (.table .inline [], rest)
      | cs => do
        let (entries, rest) ← loop (inlineStep readValue) [] cs
        .ok (.table .inline entries, rest)
  | cs => need scalar? cs

/-- Reads a value with at most so many levels of arrays and inline tables. -/
def readValue : Nat → Reads Value
  | 0 => readValueWith none
  | depth + 1 => readValueWith (some (readValue depth))

def readLineEnd (cs : List Char) : Except Fault (List Char) :=
  match lineEnd? cs with
  | some rest => .ok rest
  | none => .error .malformed

/-- Reads the key of a header and what closes it. -/
def readHeader (closing : List Char) : Reads (List String × String) := fun cs => do
  let (parts, rest) ← readKey cs
  match parts.getLast?, closing.isPrefixOf rest with
  | some key, true => .ok ((parts.dropLast, key), ← readLineEnd (rest.drop closing.length))
  | _, _ => .error .malformed

/-- A document under construction: its entries so far, and the table that the next ones belong
to. -/
structure Builder where
  entries : Entries
  current : List String

/-- Changes the table at the end of a path. -/
def Builder.edit (b : Builder) (edit : Edit) (path : List String) : Except Fault Entries := do
  let (_, entries) ← descend false edit path .header b.entries
  .ok entries

def lineStep (b : Builder) (cs : List Char) : Except Fault (Text.Step Builder Entries) := do
  match skipBlanks cs with
  | [] => .ok (.done b.entries [])
  | '#' :: rest => .ok (.more b (← readLineEnd ('#' :: rest)))
  | '\n' :: rest => .ok (.more b rest)
  | '\r' :: '\n' :: rest => .ok (.more b rest)
  | '[' :: '[' :: rest =>
    let ((path, key), rest) ← readHeader [']', ']'] rest
    .ok (.more ⟨← b.edit (appendTable key) path, path ++ [key]⟩ rest)
  | '[' :: rest =>
    let ((path, key), rest) ← readHeader [']'] rest
    .ok (.more ⟨← b.edit (defineTable key) path, path ++ [key]⟩ rest)
  | rest =>
    let ((path, key, value), rest) ← readEntry (readValue maxDepth) rest
    let rest ← readLineEnd rest
    .ok (.more { b with entries := ← b.edit (addUnder path key value) b.current } rest)

def dropMark : List Char → List Char
  | '\ufeff' :: cs => cs
  | cs => cs

/-- Reads a document: the entries of its outermost table. -/
def Document.read (text : String) : Except Fault Entries := do
  let (entries, _) ← loop lineStep ⟨[], []⟩ (dropMark text.toList)
  .ok entries

end ItemGuard.Toml

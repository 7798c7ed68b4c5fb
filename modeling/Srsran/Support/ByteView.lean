import Mathlib.Data.List.Basic

/-! Views of a byte buffer (`byte_buffer_view`, `byte_buffer_reader`). Access outside a view is not
checked by the program; here it is a fault. -/
namespace Srsran.Support

/-- The bytes of a view, and where they start in the buffer that it looks at. -/
structure ByteView where
  start : Nat := 0
  bytes : List UInt8 := []
  deriving DecidableEq, Repr

/-- A byte outside the view was read. -/
structure OutOfView where
  index : Nat
  deriving DecidableEq, Repr

namespace ByteView

def length (view : ByteView) : Nat := view.bytes.length

def read (view : ByteView) (index : Nat) : Except OutOfView UInt8 :=
  match view.bytes[index]? with
  | some byte => .ok byte
  | none => .error ⟨index⟩

def advance (view : ByteView) (n : Nat) : ByteView := ⟨view.start + n, view.bytes.drop n⟩

/-- The view of the skipped bytes that `split_and_advance` returns. -/
def split (view : ByteView) (n : Nat) : ByteView := ⟨view.start, view.bytes.take n⟩

theorem read_of_lt {view : ByteView} {index : Nat} (h : index < view.length) :
    ∃ byte, view.read index = .ok byte := by
  have hget : view.bytes[index]? = some view.bytes[index] := List.getElem?_eq_getElem h
  exact ⟨_, by rw [read, hget]⟩

end ByteView
end Srsran.Support

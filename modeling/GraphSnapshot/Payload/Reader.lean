import GraphSnapshot.Bytes
import GraphSnapshot.Fault.Corruption
import GraphSnapshot.Text.Utf8

/-! Reading from the front of a byte list. A reader that asks for more bytes than there are fails
and says where. -/
namespace GraphSnapshot.Payload

/-- What is left to read, and how much has been read. -/
structure Cursor where
  rest : List UInt8
  position : Nat

abbrev Reader (α : Type) := StateT Cursor (Except Corruption) α

namespace Reader

def position : Reader Nat := do return (← get).position

def remaining : Reader Nat := do return (← get).rest.length

def take (count : Nat) : Reader (List UInt8) := fun cursor =>
  let front := cursor.rest.take count
  if front.length = count then
    .ok (front, ⟨cursor.rest.drop count, cursor.position + count⟩)
  else .error (.truncated cursor.position count)

def byte : Reader UInt8 := fun cursor =>
  match cursor.rest with
  | b :: rest => .ok (b, ⟨rest, cursor.position + 1⟩)
  | [] => .error (.truncated cursor.position 1)

def word : Reader Nat := do return Bytes.toNat (← take 8)

def words : Nat → Reader (List UInt64)
  | 0 => return []
  | count + 1 => do
    let first ← word
    let others ← words count
    return UInt64.ofNat first :: others

def text : Reader String := do
  let length ← word
  let start ← position
  match Text.ofUtf8 (← take length) with
  | .ok s => return s
  | .error offset => throw (.invalidUtf8 (start + offset))

variable {α β : Type}

theorem bind_eq_ok_iff {r : Reader α} {next : α → Reader β} {c c' : Cursor} {y : β} :
    (r >>= next) c = .ok (y, c') ↔ ∃ x mid, r c = .ok (x, mid) ∧ next x mid = .ok (y, c') := by
  change (r c >>= fun p => next p.1 p.2) = _ ↔ _
  cases h : r c with
  | error fault => simp [Bind.bind, Except.bind]
  | ok p =>
    obtain ⟨x, mid⟩ := p
    simp only [Except.ok.injEq, Prod.mk.injEq]
    exact ⟨fun h => ⟨x, mid, ⟨rfl, rfl⟩, h⟩, fun ⟨_, _, ⟨rfl, rfl⟩, h⟩ => h⟩

theorem pure_eq_ok_iff {x y : α} {c c' : Cursor} :
    (pure x : Reader α) c = .ok (y, c') ↔ x = y ∧ c = c' := by
  change Except.ok (x, c) = Except.ok (y, c') ↔ _
  rw [Except.ok.injEq, Prod.mk.injEq]

/-- Taking succeeds exactly if the bytes are there, and it takes them from the front. -/
theorem take_eq_ok_iff {count : Nat} {c c' : Cursor} {front : List UInt8} :
    take count c = .ok (front, c') ↔
      front.length = count ∧ c.rest = front ++ c'.rest ∧ c'.position = c.position + count := by
  obtain ⟨rest, position⟩ := c
  obtain ⟨rest', position'⟩ := c'
  simp only [take]
  constructor
  · intro h
    split at h
    · next length =>
      cases h
      exact ⟨length, (List.take_append_drop count rest).symm, rfl⟩
    · cases h
  · rintro ⟨rfl, rfl, rfl⟩
    simp

theorem byte_eq_ok_iff {c c' : Cursor} {b : UInt8} :
    byte c = .ok (b, c') ↔ c.rest = b :: c'.rest ∧ c'.position = c.position + 1 := by
  obtain ⟨rest, position⟩ := c
  obtain ⟨rest', position'⟩ := c'
  cases rest with
  | nil => simp [byte]
  | cons first rest =>
    simp only [byte, Except.ok.injEq, Prod.mk.injEq, Cursor.mk.injEq, List.cons.injEq, and_assoc]
    exact ⟨fun ⟨a, b, c⟩ => ⟨a, b, c.symm⟩, fun ⟨a, b, c⟩ => ⟨a, b, c.symm⟩⟩

theorem word_eq_ok_iff {c c' : Cursor} {n : Nat} :
    word c = .ok (n, c') ↔
      n < wordLimit ∧ c.rest = Bytes.ofLength n ++ c'.rest ∧ c'.position = c.position + 8 := by
  simp only [word, bind_eq_ok_iff, pure_eq_ok_iff, take_eq_ok_iff]
  constructor
  · rintro ⟨bytes, mid, ⟨length, rest, position⟩, rfl, rfl⟩
    have below := Bytes.toNat_lt bytes
    have same := Bytes.ofNat_toNat bytes
    rw [length] at below same
    exact ⟨below, by rw [Bytes.ofLength, same, rest], position⟩
  · rintro ⟨below, rest, position⟩
    exact ⟨Bytes.ofLength n, c', ⟨Bytes.length_ofLength n, rest, position⟩,
      Bytes.toNat_ofLength below, rfl⟩

end Reader
end GraphSnapshot.Payload

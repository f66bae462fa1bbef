import GraphSnapshot.Word

/-! Numbers as little-endian bytes. A fixed number of bytes holds a number below a limit, and writing
then reading gives it back. -/
namespace GraphSnapshot.Bytes

/-- The lowest `count` bytes of `n`, least significant first. -/
def ofNat : Nat → Nat → List UInt8
  | 0, _ => []
  | count + 1, n => UInt8.ofNat n :: ofNat count (n / 256)

def toNat : List UInt8 → Nat
  | [] => 0
  | b :: rest => b.toNat + 256 * toNat rest

@[simp] theorem length_ofNat (count n : Nat) : (ofNat count n).length = count := by
  induction count generalizing n with
  | zero => rfl
  | succ count ih => simp only [ofNat, List.length_cons, ih]

def limit : Nat → Nat
  | 0 => 1
  | count + 1 => 256 * limit count

theorem toNat_ofNat (count n : Nat) : toNat (ofNat count n) = n % limit count := by
  induction count generalizing n with
  | zero => simp only [ofNat, toNat, limit, Nat.mod_one]
  | succ count ih =>
    have split : n % (256 * limit count) = n % 256 + 256 * (n / 256 % limit count) := Nat.mod_mul
    rw [limit, split, ← ih]
    simp only [ofNat, toNat, UInt8.toNat_ofNat']

theorem toNat_lt (bytes : List UInt8) : toNat bytes < limit bytes.length := by
  induction bytes with
  | nil => exact Nat.zero_lt_one
  | cons b rest ih =>
    have := b.toNat_lt
    simp only [toNat, List.length_cons, limit]
    omega

theorem ofNat_toNat (bytes : List UInt8) : ofNat bytes.length (toNat bytes) = bytes := by
  induction bytes with
  | nil => rfl
  | cons b rest ih =>
    have low : (b.toNat + 256 * toNat rest) / 256 = toNat rest := by
      have := b.toNat_lt
      omega
    simp only [List.length_cons, ofNat, toNat, low, ih, List.cons.injEq, and_true]
    apply UInt8.toNat_inj.mp
    have := b.toNat_lt
    simp only [UInt8.toNat_ofNat']
    omega

theorem limit_eight : limit 8 = wordLimit := rfl

def ofWord (word : UInt64) : List UInt8 := ofNat 8 word.toNat

@[simp] theorem length_ofWord (word : UInt64) : (ofWord word).length = 8 :=
  length_ofNat 8 word.toNat

theorem toNat_ofWord (word : UInt64) : toNat (ofWord word) = word.toNat := by
  rw [ofWord, toNat_ofNat, limit_eight]
  exact Nat.mod_eq_of_lt (toNat_lt_wordLimit word)

def ofLength (n : Nat) : List UInt8 := ofNat 8 n

@[simp] theorem length_ofLength (n : Nat) : (ofLength n).length = 8 := length_ofNat 8 n

theorem toNat_ofLength {n : Nat} (small : n < wordLimit) : toNat (ofLength n) = n := by
  rw [ofLength, toNat_ofNat, limit_eight]
  exact Nat.mod_eq_of_lt small

/-- The front of `xs` in `count` pieces of `size`. -/
def pieces {α : Type} (size : Nat) : Nat → List α → List (List α)
  | 0, _ => []
  | count + 1, xs => xs.take size :: pieces size count (xs.drop size)

end GraphSnapshot.Bytes

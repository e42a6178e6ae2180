import Mathlib

/-!
# Fixed layouts of bytes

A layout is a list of fields without padding: unsigned numbers with their least
byte first, single-precision numbers, and runs of bytes.

* `Layout.read_pack` — reading inverts packing, whatever follows;
* `Layout.read_isSome_iff` — a layout is read exactly from enough bytes;
* `Layout.unpackFrom_flatMap` — an array of records is read record by record.
-/

namespace Packing

/-- An unsigned number of `width` bytes. -/
abbrev Word (width : ℕ) := Fin (256 ^ width)

/-- A single-precision number, by its bits. -/
structure Single where
  bits : Word 4
  deriving DecidableEq, Repr

inductive Code
  | word (width : ℕ)
  | single
  | raw (count : ℕ)
  deriving DecidableEq, Repr

def Code.size : Code → ℕ
  | .word width => width
  | .single => 4
  | .raw count => count

@[reducible] def Code.Value : Code → Type
  | .word width => Word width
  | .single => Single
  | .raw count => List.Vector UInt8 count

/-! ## Numbers -/

/-- The bytes of a number, the least first. -/
def wordBytes : ℕ → ℕ → List UInt8
  | 0, _ => []
  | width + 1, n => UInt8.ofNat n :: wordBytes width (n / 256)

/-- The number of some bytes. -/
def wordOf (bytes : List UInt8) : ℕ := Nat.ofDigits 256 (bytes.map UInt8.toNat)

@[simp] theorem length_wordBytes (width n : ℕ) : (wordBytes width n).length = width := by
  induction width generalizing n with
  | zero => rfl
  | succ width ih => rw [wordBytes, List.length_cons, ih]

theorem wordOf_lt (bytes : List UInt8) : wordOf bytes < 256 ^ bytes.length := by
  have h := Nat.ofDigits_lt_base_pow_length (b := 256) (l := bytes.map UInt8.toNat) (by norm_num)
    fun x hx => by
      obtain ⟨b, -, rfl⟩ := List.mem_map.1 hx
      exact b.toNat_lt
  rwa [List.length_map] at h

theorem wordOf_wordBytes {width n : ℕ} (h : n < 256 ^ width) : wordOf (wordBytes width n) = n := by
  induction width generalizing n with
  | zero =>
    obtain rfl : n = 0 := by simpa using h
    rfl
  | succ width ih =>
    have hquotient : n / 256 < 256 ^ width := by
      rw [Nat.div_lt_iff_lt_mul (by norm_num), ← pow_succ]
      exact h
    have hrest : wordOf (wordBytes width (n / 256)) = n / 256 := ih hquotient
    rw [wordBytes, wordOf, List.map_cons, Nat.ofDigits_cons, ← wordOf, hrest, UInt8.toNat_ofNat']
    omega

/-! ## Fields -/

def Code.pack : (c : Code) → c.Value → List UInt8
  | .word width, n => wordBytes width (Fin.val n)
  | .single, x => wordBytes 4 (Fin.val (Single.bits x))
  | .raw _, bytes => List.Vector.toList bytes

/-- A field, from as many bytes as it has. -/
def Code.read : (c : Code) → (bytes : List UInt8) → bytes.length = c.size → c.Value
  | .word _, bytes, h => ⟨wordOf bytes, (wordOf_lt bytes).trans_eq (congrArg (256 ^ ·) h)⟩
  | .single, bytes, h => ⟨wordOf bytes, (wordOf_lt bytes).trans_eq (congrArg (256 ^ ·) h)⟩
  | .raw _, bytes, h => ⟨bytes, h⟩

@[simp] theorem Code.length_pack (c : Code) (v : c.Value) : (c.pack v).length = c.size := by
  cases c with
  | word width => exact length_wordBytes ..
  | single => exact length_wordBytes ..
  | raw count => exact v.2

theorem Code.read_pack (c : Code) (v : c.Value) : c.read (c.pack v) (c.length_pack v) = v := by
  cases c with
  | word width => exact Fin.ext (wordOf_wordBytes v.2)
  | single => exact congrArg Single.mk (Fin.ext (wordOf_wordBytes v.bits.2))
  | raw count => rfl

/-! ## Layouts -/

abbrev Layout := List Code

namespace Layout

def size (l : Layout) : ℕ := (l.map Code.size).sum

/-- A value for each field. -/
@[reducible] def Values : Layout → Type
  | [] => Unit
  | c :: cs => c.Value × Values cs

/-- The value at a position. -/
def Values.get : {l : Layout} → Values l → (i : ℕ) → (h : i < l.length := by decide) →
    (l[i]).Value
  | _ :: _, (v, _), 0, _ => v
  | _ :: _, (_, vs), i + 1, h => Values.get vs i (Nat.lt_of_succ_lt_succ h)

def pack : (l : Layout) → l.Values → List UInt8
  | [], _ => []
  | c :: cs, (v, vs) => c.pack v ++ pack cs vs

/-- The fields at the start of some bytes. -/
def read : (l : Layout) → List UInt8 → Option l.Values
  | [], _ => some ()
  | c :: cs, bytes =>
    if h : c.size ≤ bytes.length then
      (read cs (bytes.drop c.size)).map fun vs =>
        (c.read (bytes.take c.size) (List.length_take_of_le h), vs)
    else none

/-- The fields at an offset. -/
def unpackFrom (l : Layout) (data : List UInt8) (offset : ℕ) : Option l.Values :=
  l.read (data.drop offset)

@[simp] theorem size_cons (c : Code) (l : Layout) : size (c :: l) = c.size + size l :=
  List.sum_cons

@[simp] theorem length_pack (l : Layout) (v : l.Values) : (l.pack v).length = l.size := by
  induction l with
  | nil => rfl
  | cons c cs ih =>
    obtain ⟨v, vs⟩ := v
    rw [pack, List.length_append, Code.length_pack, ih, size_cons]

/-- **Reading inverts packing**, whatever follows. -/
theorem read_pack (l : Layout) (v : l.Values) (rest : List UInt8) :
    l.read (l.pack v ++ rest) = some v := by
  induction l with
  | nil => rfl
  | cons c cs ih =>
    obtain ⟨v, vs⟩ := v
    have hlength := c.length_pack v
    have hle : c.size ≤ (pack (c :: cs) (v, vs) ++ rest).length := by
      rw [List.length_append, length_pack, size_cons]
      omega
    have hdrop : (pack (c :: cs) (v, vs) ++ rest).drop c.size = pack cs vs ++ rest := by
      rw [pack, List.append_assoc, List.drop_left' hlength]
    have htake : (pack (c :: cs) (v, vs) ++ rest).take c.size = c.pack v := by
      rw [pack, List.append_assoc, List.take_left' hlength]
    rw [read, dif_pos hle, hdrop, ih]
    simp only [htake, Code.read_pack, Option.map_some]

/-- A layout is read exactly from enough bytes. -/
theorem read_isSome_iff (l : Layout) (bytes : List UInt8) :
    (l.read bytes).isSome ↔ l.size ≤ bytes.length := by
  induction l generalizing bytes with
  | nil => exact iff_of_true rfl (Nat.zero_le _)
  | cons c cs ih =>
    rw [read, size_cons]
    split
    · rename_i h
      rw [Option.isSome_map, ih, List.length_drop]
      omega
    · rename_i h
      exact iff_of_false (by simp) (by omega)

/-- What is read begins with the number of its first bytes. -/
theorem read_word {width : ℕ} {l : Layout} {bytes : List UInt8} {n : Word width} {vs : l.Values}
    (h : read (.word width :: l) bytes = some (n, vs)) :
    n.val = wordOf (bytes.take width) ∧ l.read (bytes.drop width) = some vs := by
  rw [read] at h
  split at h
  · obtain ⟨ws, hread, heq⟩ := Option.map_eq_some_iff.1 h
    obtain ⟨rfl, rfl⟩ := Prod.mk.inj heq
    exact ⟨rfl, hread⟩
  · cases h

/-- **An array of records** is read record by record. -/
theorem unpackFrom_flatMap (l : Layout) (vs : List l.Values) (i : ℕ) (h : i < vs.length)
    (rest : List UInt8) : l.unpackFrom (vs.flatMap l.pack ++ rest) (i * l.size) = some vs[i] := by
  induction vs generalizing i with
  | nil => exact absurd h (Nat.not_lt_zero i)
  | cons v vs ih =>
    cases i with
    | zero =>
      rw [Nat.zero_mul, unpackFrom, List.drop_zero, List.flatMap_cons, List.append_assoc]
      exact read_pack l v _
    | succ i =>
      have hdrop : (l.pack v ++ (vs.flatMap l.pack ++ rest)).drop ((i + 1) * l.size) =
          (vs.flatMap l.pack ++ rest).drop (i * l.size) := by
        rw [Nat.succ_mul, Nat.add_comm, ← List.drop_drop, List.drop_left' (l.length_pack v)]
      rw [unpackFrom, List.flatMap_cons, List.append_assoc, hdrop]
      exact ih i (Nat.lt_of_succ_lt_succ h)

end Layout

end Packing

import Mathlib.Algebra.Ring.Nat
import Nbd.Message.Fields

/-! # Rows of words

A message is a row of words, and a word is a number in as many bytes as its size
says.  This module says what a cursor does on such rows, for rows of any length and
any mix of sizes: it takes a row exactly where the bytes of that row stand
(`Cursor.words_eq_some_iff`), and bytes of the right length always are the bytes of
some row (`Word.exists_row`).
-/

namespace Nbd

/-- The number of bytes a word takes. -/
def WordSize.width : WordSize → Nat
  | .w16 => 2
  | .w32 => 4
  | .w64 => 8

/-! ## Numbers -/

theorem bigEndian_take {width : Nat} {input : Bytes} (enough : width ≤ input.length) :
    bigEndian width (ofBigEndian (input.take width)) = input.take width := by
  have exact_length : (input.take width).length = width := by simp [enough]
  have spelled := bigEndian_ofBigEndian (input.take width)
  rwa [exact_length] at spelled

theorem ofBigEndian_take_lt {width : Nat} {input : Bytes} (enough : width ≤ input.length) :
    ofBigEndian (input.take width) < 256 ^ width := by
  have bound := ofBigEndian_lt (input.take width)
  rwa [List.length_take, Nat.min_eq_left enough] at bound

/-- The leading digit decides, and the rest only where the leading digits are equal. -/
theorem leading_digit_lt_iff {x y rest other weight : Nat} (small : rest < weight)
    (smallToo : other < weight) :
    x * weight + rest < y * weight + other ↔ x < y ∨ x = y ∧ rest < other := by
  have outweighs {low high : Nat} (less : low < high) :
      low * weight + weight ≤ high * weight := by
    rw [← Nat.succ_mul]
    exact Nat.mul_le_mul_right weight less
  obtain less | rfl | more := Nat.lt_trichotomy x y
  · have := outweighs less
    omega
  · omega
  · have := outweighs more
    omega

theorem Cursor.number_eq_some_iff {width n : Nat} {input rest : Bytes} :
    (Cursor.number width).run input = some (n, rest) ↔
      n < 256 ^ width ∧ bigEndian width n ++ rest = input := by
  change (if input.length < width then none
    else some (ofBigEndian (input.take width), input.drop width)) = some (n, rest) ↔ _
  constructor
  · intro taken
    split at taken
    · cases taken
    · next long =>
      simp only [Option.some.injEq, Prod.mk.injEq] at taken
      obtain ⟨rfl, rfl⟩ := taken
      have enough : width ≤ input.length := by omega
      refine ⟨ofBigEndian_take_lt enough, ?_⟩
      rw [bigEndian_take enough, List.take_append_drop]
  · rintro ⟨bound, rfl⟩
    have long : ¬ (bigEndian width n ++ rest).length < width := by simp
    rw [if_neg long, List.take_left' (length_bigEndian width n),
      List.drop_left' (length_bigEndian width n), ofBigEndian_bigEndian bound]

/-! ## One value after another

Values of several sorts that are laid out without gaps.  What holds of single values holds of
rows of them. -/

section

variable {σ α : Type} {sort : α → σ} {encode : α → Bytes}

/-- If a cursor for single values takes them exactly where their bytes stand, it takes rows of
    them exactly where the bytes of the rows stand. -/
theorem Cursor.mapM_eq_some_iff {single : σ → Cursor α}
    (takes : ∀ {s v input rest}, (single s).run input = some (v, rest) ↔
      sort v = s ∧ encode v ++ rest = input)
    {sorts : List σ} {row : List α} {input rest : Bytes} :
    (sorts.mapM single).run input = some (row, rest) ↔
      row.map sort = sorts ∧ row.flatMap encode ++ rest = input := by
  induction sorts generalizing row input rest with
  | nil =>
    cases row with
    | nil => simp [eq_comm]
    | cons v row => simp
  | cons s sorts ih =>
    simp only [List.mapM_cons, StateT.run_bind, StateT.run_pure, Option.bind_eq_bind,
      Option.bind_eq_some_iff, Prod.exists, Option.pure_def, Option.some.injEq, Prod.mk.injEq,
      takes, ih]
    constructor
    · rintro ⟨v, _, ⟨sorted, rfl⟩, row, _, ⟨rowSorted, rfl⟩, rfl, rfl⟩
      simp [sorted, rowSorted]
    · rintro ⟨sorted, rfl⟩
      cases row with
      | nil => cases sorted
      | cons v row =>
        simp only [List.map_cons, List.cons.injEq] at sorted
        exact ⟨v, _, ⟨sorted.1, by simp⟩, row, rest, ⟨sorted.2, rfl⟩, rfl, rfl⟩

/-- If all bytes of the right length are those of some value, all bytes of the right total length
    are those of some row. -/
theorem exists_row_of_exists {width : σ → Nat}
    (spelled : ∀ {s bytes}, bytes.length = width s → ∃ v, sort v = s ∧ encode v = bytes)
    {sorts : List σ} {bytes : Bytes} (exact_length : bytes.length = (sorts.map width).sum) :
    ∃ row : List α, row.map sort = sorts ∧ row.flatMap encode = bytes := by
  induction sorts generalizing bytes with
  | nil => exact ⟨[], rfl, (List.length_eq_zero_iff.mp exact_length).symm⟩
  | cons first sorts ih =>
    simp only [List.map_cons, List.sum_cons] at exact_length
    have enough : width first ≤ bytes.length := by omega
    have others : (bytes.drop (width first)).length = (sorts.map width).sum := by
      rw [List.length_drop]
      omega
    have front : (bytes.take (width first)).length = width first := by simp [enough]
    obtain ⟨v, sorted, spelledFirst⟩ := spelled front
    obtain ⟨row, rowSorted, rowSpelled⟩ := ih others
    refine ⟨v :: row, ?_, ?_⟩
    · rw [List.map_cons, sorted, rowSorted]
    · rw [List.flatMap_cons, spelledFirst, rowSpelled, List.take_append_drop]

end

/-! ## Single words -/

namespace Word

/-- The bytes of a word. -/
def encode (w : Word) : Bytes := Message.encode (.word w)

/-- The word of a size with the low bits of a number. -/
def ofNat : WordSize → Nat → Word
  | .w16, n => .w16 (.ofNat n)
  | .w32, n => .w32 (.ofNat n)
  | .w64, n => .w64 (.ofNat n)

theorem encode_eq (w : Word) : w.encode = bigEndian w.size.width w.toNat := by
  cases w <;> rfl

@[simp] theorem length_encode (w : Word) : w.encode.length = w.size.width := by
  rw [encode_eq, length_bigEndian]

theorem toNat_lt (w : Word) : w.toNat < 256 ^ w.size.width := by
  cases w with
  | w16 value => exact value.toNat_lt
  | w32 value => exact value.toNat_lt
  | w64 value => exact value.toNat_lt

@[simp] theorem size_ofNat (size : WordSize) (n : Nat) : (ofNat size n).size = size := by
  cases size <;> rfl

@[simp] theorem ofNat_toNat (w : Word) : ofNat w.size w.toNat = w := by
  cases w <;> simp [ofNat, size, toNat]

theorem toNat_ofNat {size : WordSize} {n : Nat} (bound : n < 256 ^ size.width) :
    (ofNat size n).toNat = n := by
  cases size with
  | w16 => exact UInt16.toNat_ofNat_of_lt' bound
  | w32 => exact UInt32.toNat_ofNat_of_lt' bound
  | w64 => exact UInt64.toNat_ofNat_of_lt' bound

theorem ofBigEndian_encode (w : Word) : ofBigEndian w.encode = w.toNat := by
  rw [encode_eq, ofBigEndian_bigEndian w.toNat_lt]

theorem exists_encode {size : WordSize} {bytes : Bytes} (exact_length : bytes.length = size.width) :
    ∃ w : Word, w.size = size ∧ w.encode = bytes := by
  have bound := ofBigEndian_lt bytes
  rw [exact_length] at bound
  refine ⟨ofNat size (ofBigEndian bytes), size_ofNat .., ?_⟩
  rw [encode_eq, size_ofNat, toNat_ofNat bound, ← exact_length, bigEndian_ofBigEndian]

end Word

namespace Cursor

/-- Takes a word of a size. -/
def word (size : WordSize) : Cursor Word := Word.ofNat size <$> number size.width

theorem word_eq_some_iff {size : WordSize} {w : Word} {input rest : Bytes} :
    (word size).run input = some (w, rest) ↔ w.size = size ∧ w.encode ++ rest = input := by
  simp only [word, StateT.run_map, Option.map_eq_map, Option.map_eq_some_iff, Prod.exists,
    Prod.mk.injEq]
  constructor
  · rintro ⟨n, _, taken, rfl, rfl⟩
    obtain ⟨bound, spelled⟩ := number_eq_some_iff.mp taken
    refine ⟨Word.size_ofNat size n, ?_⟩
    rw [Word.encode_eq, Word.size_ofNat, Word.toNat_ofNat bound, spelled]
  · rintro ⟨rfl, spelled⟩
    rw [Word.encode_eq] at spelled
    exact ⟨w.toNat, rest, number_eq_some_iff.mpr ⟨w.toNat_lt, spelled⟩, w.ofNat_toNat, rfl⟩

/-! ## Rows -/

/-- Takes a row of words of the given sizes. -/
def words (sizes : List WordSize) : Cursor (List Word) := sizes.mapM word

theorem words_eq_some_iff {sizes : List WordSize} {row : List Word} {input rest : Bytes} :
    (words sizes).run input = some (row, rest) ↔
      row.map Word.size = sizes ∧ row.flatMap Word.encode ++ rest = input :=
  mapM_eq_some_iff word_eq_some_iff

end Cursor

namespace Word

theorem length_row (row : List Word) :
    (row.flatMap encode).length = ((row.map size).map WordSize.width).sum := by
  induction row with
  | nil => rfl
  | cons w row ih => simp [ih]

theorem exists_row {sizes : List WordSize} {bytes : Bytes}
    (exact_length : bytes.length = (sizes.map WordSize.width).sum) :
    ∃ row : List Word, row.map size = sizes ∧ row.flatMap encode = bytes :=
  exists_row_of_exists exists_encode exact_length

end Word

end Nbd

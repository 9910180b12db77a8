import Mathlib.Data.Nat.Digits.Defs
import Mathlib.Data.List.TakeWhile
import Sentential.Text.Numeral

/-!
# Numerals

A numeral is white space around an optional sign and one or more decimal digits of any script, with
single underscores between digits. It has the value that its digits have in base ten. The reader
accepts exactly the numerals of at most 4300 digits: it counts the digits, trims the white space,
takes off the sign and reads the digits one by one, and what it has read so far is the value of the
digits so far. The decimal text of an integer is a numeral of it, and is read if it is short enough.
-/
namespace Sentential.Text

/-! ## Digits -/

/-- The character is so many places behind the zero of a decimal system. -/
def Digit (c : Char) (d : Nat) : Prop := d < 10 ∧ ∃ z ∈ decimalZeros, c.toNat = z + d

theorem decimalZeros_separate :
    ∀ y ∈ decimalZeros, ∀ z ∈ decimalZeros, y ≤ z → z < y + 10 → y = z := by
  decide +kernel

theorem digitValue?_eq_some_iff {c : Char} {d : Nat} : digitValue? c = some d ↔ Digit c d := by
  unfold digitValue?
  rw [Option.map_eq_some_iff]
  constructor
  · rintro ⟨z, hfound, rfl⟩
    have hrange := List.find?_some hfound
    simp only [Bool.and_eq_true, decide_eq_true_eq] at hrange
    exact ⟨by omega, z, List.mem_of_find?_eq_some hfound, by omega⟩
  · rintro ⟨hd, z, hz, hc⟩
    cases hfound : decimalZeros.find? fun z => z ≤ c.toNat && c.toNat < z + 10 with
    | none =>
      have hnot := List.find?_eq_none.mp hfound z hz
      simp only [Bool.and_eq_true, decide_eq_true_eq] at hnot
      omega
    | some y =>
      -- Two decimal systems do not overlap, so the first one that fits is the one.
      have hrange := List.find?_some hfound
      have hy := List.mem_of_find?_eq_some hfound
      simp only [Bool.and_eq_true, decide_eq_true_eq] at hrange
      have hsame : y = z := by
        rcases Nat.le_total y z with hle | hle
        · exact decimalZeros_separate y hy z hz hle (by omega)
        · exact (decimalZeros_separate z hz y hy hle (by omega)).symm
      exact ⟨y, rfl, by omega⟩

namespace Digit

variable {c x : Char} {d : Nat}

theorem not_isWhiteSpace (h : Digit c d) : isWhiteSpace c = false := by
  obtain ⟨hd, z, hz, hc⟩ := h
  have hall : ∀ z ∈ decimalZeros, ∀ k < 10,
      ((0x9 ≤ z + k && z + k ≤ 0xd) || z + k == 0x20 || z + k == 0x85 || z + k == 0xa0 ||
        z + k == 0x1680 || (0x2000 ≤ z + k && z + k ≤ 0x200a) || z + k == 0x2028 ||
        z + k == 0x2029 || z + k == 0x202f || z + k == 0x205f || z + k == 0x3000) = false := by
    decide +kernel
  have hcode := hall z hz d hd
  rw [← hc] at hcode
  exact hcode

theorem ne_of_digitValue? (h : Digit c d) (hx : digitValue? x = none) : c ≠ x := by
  rintro rfl
  rw [digitValue?_eq_some_iff.mpr h] at hx
  cases hx

theorem of_isDigit (h : c.isDigit = true) : Digit c (c.toNat - '0'.toNat) := by
  obtain ⟨hlow, hhigh⟩ := Char.isDigit_iff_toNat.mp h
  have hzero : '0'.toNat ∈ decimalZeros := List.mem_cons_self
  refine ⟨?_, _, hzero, by omega⟩
  change c.toNat ≤ '0'.toNat + 9 at hhigh
  omega

end Digit

/-- Digits of any script, single underscores between them allowed, and the values of the digits. -/
inductive Digits : List Char → List Nat → Prop where
  | last {c : Char} {d : Nat} : Digit c d → Digits [c] [d]
  | next {c : Char} {d : Nat} {s : List Char} {ds : List Nat} :
      Digit c d → Digits s ds → Digits (c :: s) (d :: ds)
  | underscore {c : Char} {d : Nat} {s : List Char} {ds : List Nat} :
      Digit c d → Digits s ds → Digits (c :: '_' :: s) (d :: ds)

/-- An optional sign, and the unit that it stands for. -/
inductive Sign : List Char → Int → Prop where
  | absent : Sign [] 1
  | plus : Sign ['+'] 1
  | minus : Sign ['-'] (-1)

/-- The value in base ten of digits with the most significant first. -/
def decimal (ds : List Nat) : Nat := Nat.ofDigits 10 ds.reverse

/-- The text is a numeral of the integer, in these digits. -/
def Numeral (s : List Char) (ds : List Nat) (n : Int) : Prop :=
  ∃ (before sign digits after : List Char) (unit : Int),
    s = before ++ (sign ++ digits ++ after) ∧
      (∀ c ∈ before, isWhiteSpace c) ∧ (∀ c ∈ after, isWhiteSpace c) ∧
      Sign sign unit ∧ Digits digits ds ∧ n = unit * decimal ds

/-- The text is a numeral of the integer in at most 4300 digits, zeros in front included. -/
def ShortNumeral (s : List Char) (n : Int) : Prop := ∃ ds, Numeral s ds n ∧ ds.length ≤ 4300

theorem decimal_eq_foldl (ds : List Nat) :
    decimal ds = ds.foldl (fun value d => 10 * value + d) 0 := by
  rw [decimal, Nat.ofDigits_eq_foldr, List.foldr_reverse]
  simp only [Nat.cast_id, Nat.add_comm]

namespace Digits

variable {s : List Char} {ds : List Nat}

theorem exists_cons (h : Digits s ds) : ∃ c rest d, s = c :: rest ∧ Digit c d := by
  cases h with
  | last hc => exact ⟨_, _, _, rfl, hc⟩
  | next hc _ => exact ⟨_, _, _, rfl, hc⟩
  | underscore hc _ => exact ⟨_, _, _, rfl, hc⟩

theorem exists_concat (h : Digits s ds) : ∃ rest c d, s = rest ++ [c] ∧ Digit c d := by
  induction h with
  | last hc => exact ⟨[], _, _, rfl, hc⟩
  | @next x _ _ _ _ _ ih =>
    obtain ⟨rest, c, d, rfl, hc⟩ := ih
    exact ⟨x :: rest, c, d, rfl, hc⟩
  | @underscore x _ _ _ _ _ ih =>
    obtain ⟨rest, c, d, rfl, hc⟩ := ih
    exact ⟨x :: '_' :: rest, c, d, rfl, hc⟩

end Digits

/-! ## Reading digits -/

theorem readDigits_digit {c : Char} {d : Nat} (h : Digit c d) (value : Nat) (rest : List Char) :
    readDigits value (c :: rest) = readDigits (10 * value + d) rest := by
  have hc : c ≠ '_' := h.ne_of_digitValue? (by decide)
  rw [readDigits, digitValue?_eq_some_iff.mpr h, Option.bind_some]
  exact fun _ _ hunderscore _ => hc hunderscore

theorem readDigits_underscore {c : Char} {d : Nat} (h : Digit c d) (value : Nat)
    (rest : List Char) :
    readDigits value ('_' :: c :: rest) = readDigits (10 * value + d) rest := by
  rw [readDigits, digitValue?_eq_some_iff.mpr h, Option.bind_some]

theorem readDigits_eq {s : List Char} {ds : List Nat} (h : Digits s ds) (value : Nat) :
    readDigits value s = some (ds.foldl (fun value d => 10 * value + d) value) := by
  induction h generalizing value with
  | last hc => rw [readDigits_digit hc, readDigits, List.foldl_cons, List.foldl_nil]
  | next hc _ ih => rw [readDigits_digit hc, ih, List.foldl_cons]
  | underscore hc hs ih =>
    obtain ⟨x, rest, d, rfl, hx⟩ := hs.exists_cons
    rw [readDigits_digit hc, readDigits_underscore hx, ← readDigits_digit hx, ih, List.foldl_cons]

/-- What follows a first digit: nothing, digits, or an underscore and digits. -/
theorem exists_digits_of_readDigits {value n : Nat} {s : List Char}
    (h : readDigits value s = some n) :
    s = [] ∧ n = value ∨
      ∃ t ds, (s = t ∨ s = '_' :: t) ∧ Digits t ds ∧
        n = ds.foldl (fun value d => 10 * value + d) value := by
  -- Behind each digit that was read stands one of the three again, and the digit goes in front.
  have behind {c : Char} {rest : List Char} {value : Nat}
      (ih : ∀ d, readDigits (10 * value + d) rest = some n →
        rest = [] ∧ n = 10 * value + d ∨ ∃ t ds, (rest = t ∨ rest = '_' :: t) ∧ Digits t ds ∧
          n = ds.foldl (fun value d => 10 * value + d) (10 * value + d))
      (h : ((digitValue? c).bind fun d => readDigits (10 * value + d) rest) = some n) :
      ∃ ds, Digits (c :: rest) ds ∧ n = ds.foldl (fun value d => 10 * value + d) value := by
    obtain ⟨d, hd, hrest⟩ := Option.bind_eq_some_iff.mp h
    have hc := digitValue?_eq_some_iff.mp hd
    rcases ih d hrest with ⟨rfl, rfl⟩ | ⟨t, ds, rfl | rfl, ht, rfl⟩
    · exact ⟨[d], .last hc, rfl⟩
    · exact ⟨d :: ds, .next hc ht, rfl⟩
    · exact ⟨d :: ds, .underscore hc ht, rfl⟩
  fun_induction readDigits value s with
  | case1 value => exact .inl ⟨rfl, (Option.some.inj h).symm⟩
  | case2 value c rest ih =>
    obtain ⟨ds, hds, hn⟩ := behind ih h
    exact .inr ⟨_, ds, .inr rfl, hds, hn⟩
  | case3 value c rest _ ih =>
    obtain ⟨ds, hds, hn⟩ := behind ih h
    exact .inr ⟨_, ds, .inl rfl, hds, hn⟩

theorem readNatural?_eq_some_iff {s : List Char} {n : Nat} :
    readNatural? s = some n ↔ ∃ ds, Digits s ds ∧ n = decimal ds := by
  constructor
  · intro h
    cases s with
    | nil => cases h
    | cons c rest =>
      obtain ⟨d, hd, hrest⟩ := Option.bind_eq_some_iff.mp h
      have hc := digitValue?_eq_some_iff.mp hd
      have hread : readDigits 0 (c :: rest) = some n := by
        rw [readDigits_digit hc, Nat.mul_zero, Nat.zero_add, hrest]
      rcases exists_digits_of_readDigits hread with ⟨hnil, -⟩ | ⟨t, ds, rfl | ht, hds, rfl⟩
      · cases hnil
      · exact ⟨ds, hds, (decimal_eq_foldl ds).symm⟩
      · exact absurd (List.cons.inj ht).1 (hc.ne_of_digitValue? (by decide))
  · rintro ⟨ds, hds, rfl⟩
    obtain ⟨c, rest, d, rfl, hc⟩ := hds.exists_cons
    have hread := readDigits_eq hds 0
    rw [readDigits_digit hc, Nat.mul_zero, Nat.zero_add] at hread
    rw [readNatural?, digitValue?_eq_some_iff.mpr hc, Option.bind_some, hread, decimal_eq_foldl]

/-! ## Signs and white space -/

/-- The text does not begin with a sign. -/
def Unsigned (s : List Char) : Prop := ∀ c ∈ s.head?, c ≠ '-' ∧ c ≠ '+'

theorem Digits.unsigned {s : List Char} {ds : List Nat} (h : Digits s ds) : Unsigned s := by
  obtain ⟨c, rest, d, rfl, hc⟩ := h.exists_cons
  intro x hx
  obtain rfl := Option.some.inj hx
  exact ⟨hc.ne_of_digitValue? (by decide), hc.ne_of_digitValue? (by decide)⟩

theorem exists_sign (s : List Char) :
    ∃ sign unit rest, s = sign ++ rest ∧ Sign sign unit ∧ (sign = [] → Unsigned rest) := by
  cases s with
  | nil => exact ⟨[], 1, [], rfl, .absent, fun _ => by simp [Unsigned]⟩
  | cons c rest =>
    by_cases hminus : c = '-'
    · exact ⟨['-'], -1, rest, by rw [hminus]; rfl, .minus, fun h => by simp at h⟩
    · by_cases hplus : c = '+'
      · exact ⟨['+'], 1, rest, by rw [hplus]; rfl, .plus, fun h => by simp at h⟩
      · exact ⟨[], 1, c :: rest, rfl, .absent, fun _ => by simp [Unsigned, hminus, hplus]⟩

theorem readSigned?_append {sign rest : List Char} {unit : Int} (hsign : Sign sign unit)
    (hrest : sign = [] → Unsigned rest) :
    readSigned? (sign ++ rest) = (readNatural? rest).map fun m : Nat => unit * (m : Int) := by
  cases hsign with
  | absent =>
    have hunsigned := hrest rfl
    rw [List.nil_append, readSigned?]
    · cases readNatural? rest <;> simp
    · rintro more rfl
      exact (hunsigned '-' rfl).1 rfl
    · rintro more rfl
      exact (hunsigned '+' rfl).2 rfl
  | plus =>
    rw [List.singleton_append, readSigned?]
    cases readNatural? rest <;> simp
  | minus =>
    rw [List.singleton_append, readSigned?]
    cases readNatural? rest <;> simp

theorem readSigned?_eq_some_iff {s : List Char} {n : Int} :
    readSigned? s = some n ↔
      ∃ sign digits unit ds, s = sign ++ digits ∧ Sign sign unit ∧ Digits digits ds ∧
        n = unit * decimal ds := by
  constructor
  · intro h
    obtain ⟨sign, unit, rest, rfl, hsign, hrest⟩ := exists_sign s
    rw [readSigned?_append hsign hrest] at h
    obtain ⟨m, hm, rfl⟩ := Option.map_eq_some_iff.mp h
    obtain ⟨ds, hds, rfl⟩ := readNatural?_eq_some_iff.mp hm
    exact ⟨sign, rest, unit, ds, rfl, hsign, hds, rfl⟩
  · rintro ⟨sign, digits, unit, ds, rfl, hsign, hdigits, rfl⟩
    rw [readSigned?_append hsign fun _ => hdigits.unsigned,
      readNatural?_eq_some_iff.mpr ⟨ds, hdigits, rfl⟩, Option.map_some]

theorem exists_trimWith (p : Char → Bool) (s : List Char) :
    ∃ before after, s = before ++ (trimWith p s ++ after) ∧
      (∀ c ∈ before, p c) ∧ ∀ c ∈ after, p c := by
  refine ⟨s.takeWhile p, ((s.dropWhile p).reverse.takeWhile p).reverse, ?_, ?_, ?_⟩
  · rw [trimWith, ← List.reverse_append, List.takeWhile_append_dropWhile, List.reverse_reverse,
      List.takeWhile_append_dropWhile]
  · exact fun c hc => List.mem_takeWhile_imp hc
  · exact fun c hc => List.mem_takeWhile_imp (List.mem_reverse.mp hc)

theorem trimWith_eq {p : Char → Bool} {before body after : List Char}
    (hbefore : ∀ c ∈ before, p c) (hafter : ∀ c ∈ after, p c)
    (hhead : ∃ c rest, body = c :: rest ∧ p c = false)
    (hlast : ∃ rest c, body = rest ++ [c] ∧ p c = false) :
    trimWith p (before ++ (body ++ after)) = body := by
  obtain ⟨c, rest, hbody, hc⟩ := hhead
  obtain ⟨front, d, hbody', hd⟩ := hlast
  have hleft : (body ++ after).dropWhile p = body ++ after := by
    rw [hbody, List.cons_append, List.dropWhile_cons_of_neg (by simp [hc])]
  have hright : body.reverse.dropWhile p = body.reverse := by
    rw [hbody', List.reverse_append, List.reverse_singleton, List.singleton_append,
      List.dropWhile_cons_of_neg (by simp [hd])]
  rw [trimWith, List.dropWhile_append_of_pos hbefore, hleft, List.reverse_append,
    List.dropWhile_append_of_pos fun c hc => hafter c (List.mem_reverse.mp hc), hright,
    List.reverse_reverse]

theorem readSigned?_trimWith_eq_some_iff {s : List Char} {n : Int} :
    readSigned? (trimWith isWhiteSpace s) = some n ↔ ∃ ds, Numeral s ds n := by
  rw [readSigned?_eq_some_iff]
  constructor
  · rintro ⟨sign, digits, unit, ds, hbody, hsign, hdigits, hn⟩
    obtain ⟨before, after, hs, hbefore, hafter⟩ := exists_trimWith isWhiteSpace s
    rw [hbody] at hs
    exact ⟨ds, before, sign, digits, after, unit, hs, hbefore, hafter, hsign, hdigits, hn⟩
  · rintro ⟨ds, before, sign, digits, after, unit, hs, hbefore, hafter, hsign, hdigits, hn⟩
    refine ⟨sign, digits, unit, ds, ?_, hsign, hdigits, hn⟩
    rw [hs]
    have hhead : ∃ c rest, sign ++ digits = c :: rest ∧ isWhiteSpace c = false := by
      cases hsign with
      | absent =>
        obtain ⟨c, rest, d, rfl, hc⟩ := hdigits.exists_cons
        exact ⟨c, rest, rfl, hc.not_isWhiteSpace⟩
      | plus => exact ⟨'+', digits, rfl, by decide⟩
      | minus => exact ⟨'-', digits, rfl, by decide⟩
    have hlast : ∃ rest c, sign ++ digits = rest ++ [c] ∧ isWhiteSpace c = false := by
      obtain ⟨rest, c, d, rfl, hc⟩ := hdigits.exists_concat
      exact ⟨sign ++ rest, c, (List.append_assoc sign rest [c]).symm, hc.not_isWhiteSpace⟩
    exact trimWith_eq hbefore hafter hhead hlast

/-! ## Counting digits -/

theorem digitCount_append (s t : List Char) :
    digitCount (s ++ t) = digitCount s + digitCount t := List.countP_append

theorem digitCount_eq_zero {s : List Char} (h : ∀ c ∈ s, digitValue? c = none) :
    digitCount s = 0 := by
  refine List.countP_eq_zero.mpr fun c hc => ?_
  rw [h c hc]
  exact Bool.false_ne_true

theorem Digits.digitCount_eq {s : List Char} {ds : List Nat} (h : Digits s ds) :
    digitCount s = ds.length := by
  have hcount {c : Char} {d : Nat} (hc : Digit c d) (s : List Char) :
      digitCount (c :: s) = digitCount s + 1 :=
    List.countP_cons_of_pos (by rw [digitValue?_eq_some_iff.mpr hc]; rfl)
  have hskip (s : List Char) : digitCount ('_' :: s) = digitCount s :=
    List.countP_cons_of_neg (by decide)
  induction h with
  | last hc => exact hcount hc []
  | next hc _ ih => rw [hcount hc, ih, List.length_cons]
  | underscore hc _ ih => rw [hcount hc, hskip, ih, List.length_cons]

theorem Numeral.digitCount_eq {s : List Char} {ds : List Nat} {n : Int} (h : Numeral s ds n) :
    digitCount s = ds.length := by
  obtain ⟨before, sign, digits, after, unit, rfl, hbefore, hafter, hsign, hdigits, -⟩ := h
  have hblank {c : Char} (hc : isWhiteSpace c) : digitValue? c = none := by
    refine Option.eq_none_iff_forall_ne_some.mpr fun d hd => ?_
    rw [(digitValue?_eq_some_iff.mp hd).not_isWhiteSpace] at hc
    cases hc
  have hunit : digitCount sign = 0 := by cases hsign <;> decide
  simp only [digitCount_append, digitCount_eq_zero fun c hc => hblank (hbefore c hc),
    digitCount_eq_zero fun c hc => hblank (hafter c hc), hunit, hdigits.digitCount_eq,
    Nat.zero_add, Nat.add_zero]

/-- The reader accepts exactly the numerals that are short enough, with their values. -/
theorem readInteger?_eq_some_iff {s : String} {n : Int} :
    readInteger? s = some n ↔ ShortNumeral s.toList n := by
  rw [readInteger?, Option.ite_none_right_eq_some, readSigned?_trimWith_eq_some_iff]
  constructor
  · rintro ⟨hcount, ds, h⟩
    exact ⟨ds, h, h.digitCount_eq ▸ hcount⟩
  · rintro ⟨ds, h, hlength⟩
    exact ⟨h.digitCount_eq.symm ▸ hlength, ds, h⟩

/-- A text with too many digits is not the short numeral of any integer. -/
theorem Numeral.not_shortNumeral {s : List Char} {ds : List Nat} {n : Int} (h : Numeral s ds n)
    (hlength : 4300 < ds.length) (m : Int) : ¬ShortNumeral s m := by
  rintro ⟨ds', h', hshort⟩
  rw [← h'.digitCount_eq, h.digitCount_eq] at hshort
  omega

/-! ## Decimal texts -/

theorem numeral_of_digits {sign digits : List Char} {unit : Int} {ds : List Nat}
    (hsign : Sign sign unit) (hdigits : Digits digits ds) :
    Numeral (sign ++ digits) ds (unit * decimal ds) := by
  refine ⟨[], sign, digits, [], unit, ?_, ?_, ?_, hsign, hdigits, rfl⟩
  · simp
  · simp
  · simp

theorem Digits.lt_ten {s : List Char} {ds : List Nat} (h : Digits s ds) : ∀ d ∈ ds, d < 10 := by
  induction h with
  | last hc => exact fun d hd => List.mem_singleton.mp hd ▸ hc.1
  | next hc _ ih => exact List.forall_mem_cons.mpr ⟨hc.1, ih⟩
  | underscore hc _ ih => exact List.forall_mem_cons.mpr ⟨hc.1, ih⟩

theorem Digits.decimal_lt {s : List Char} {ds : List Nat} (h : Digits s ds) :
    decimal ds < 10 ^ ds.length := by
  rw [decimal, ← List.length_reverse]
  exact Nat.ofDigits_lt_base_pow_length (by decide) fun d hd => h.lt_ten d (List.mem_reverse.mp hd)

theorem digits_ascii {s : List Char} (hne : s ≠ []) (h : ∀ c ∈ s, c.isDigit) :
    Digits s (s.map fun c => c.toNat - '0'.toNat) := by
  induction s with
  | nil => exact absurd rfl hne
  | cons c s ih =>
    rw [List.forall_mem_cons] at h
    have hc := Digit.of_isDigit h.1
    cases s with
    | nil => exact .last hc
    | cons d s => exact .next hc (ih (List.cons_ne_nil d s) h.2)

theorem digits_toDigits (n : Nat) :
    ∃ ds, Digits (Nat.toDigits 10 n) ds ∧ decimal ds = n ∧
      ∀ k, 0 < k → (ds.length ≤ k ↔ n < 10 ^ k) := by
  have hdigits := digits_ascii (Nat.toDigits_ne_nil (b := 10) (n := n))
    fun c hc => Nat.isDigit_of_mem_toDigits (by decide) (by decide) hc
  have hvalue : decimal ((Nat.toDigits 10 n).map fun c => c.toNat - '0'.toNat) = n := by
    rw [decimal_eq_foldl, List.foldl_map, ← Nat.ofDigitChars_eq_foldl,
      Nat.ofDigitChars_ten_toDigits]
  refine ⟨_, hdigits, hvalue, fun k hk => ⟨fun hlength => ?_, fun hn => ?_⟩⟩
  · have hlt := hdigits.decimal_lt
    rw [hvalue] at hlt
    exact hlt.trans_le (Nat.pow_le_pow_right (by decide) hlength)
  · rw [List.length_map]
    exact Nat.toDigits_length 10 n k hk hn

/-- The decimal text of an integer is a numeral of it, with as many digits as the integer has. -/
theorem numeral_toString (n : Int) :
    ∃ ds, Numeral (toString n).toList ds n ∧
      ∀ k, 0 < k → (ds.length ≤ k ↔ n.natAbs < 10 ^ k) := by
  cases n with
  | ofNat m =>
    obtain ⟨ds, hdigits, hvalue, hlength⟩ := digits_toDigits m
    have h := numeral_of_digits .absent hdigits
    have htext : (toString (Int.ofNat m)).toList = [] ++ Nat.toDigits 10 m := by
      rw [show toString (Int.ofNat m) = Nat.repr m from rfl, Nat.repr_eq_ofList_toDigits,
        String.toList_ofList, List.nil_append]
    rw [hvalue, one_mul, ← htext] at h
    exact ⟨ds, h, hlength⟩
  | negSucc m =>
    obtain ⟨ds, hdigits, hvalue, hlength⟩ := digits_toDigits (m + 1)
    have h := numeral_of_digits .minus hdigits
    have htext : (toString (Int.negSucc m)).toList = ['-'] ++ Nat.toDigits 10 (m + 1) := by
      rw [show toString (Int.negSucc m) = "-" ++ Nat.repr (m + 1) from rfl,
        Nat.repr_eq_ofList_toDigits, String.toList_append]
      exact congrArg _ String.toList_ofList
    rw [hvalue, neg_one_mul, ← htext] at h
    exact ⟨ds, h, hlength⟩

/-- The decimal text of an integer is read as the integer, if the integer has at most 4300
digits. -/
theorem readInteger?_toString_iff (n : Int) :
    readInteger? (toString n) = some n ↔ n.natAbs < 10 ^ 4300 := by
  obtain ⟨ds, h, hlength⟩ := numeral_toString n
  rw [readInteger?_eq_some_iff, ← hlength 4300 (Nat.succ_pos 4299)]
  constructor
  · intro hshort
    by_contra hlong
    exact h.not_shortNumeral (Nat.lt_of_not_le hlong) n hshort
  · exact fun hshort => ⟨ds, h, hshort⟩

theorem Digits.zeros {s : List Char} {ds : List Nat} (h : Digits s ds) (k : Nat) :
    Digits (List.replicate k '0' ++ s) (List.replicate k 0 ++ ds) ∧
      decimal (List.replicate k 0 ++ ds) = decimal ds := by
  have hzero : Digit '0' 0 := digitValue?_eq_some_iff.mp (by decide)
  induction k with
  | zero => exact ⟨h, rfl⟩
  | succ k ih =>
    obtain ⟨hdigits, hvalue⟩ := ih
    refine ⟨.next hzero hdigits, ?_⟩
    rw [← hvalue, decimal, decimal, List.replicate_succ, List.cons_append,
      Nat.ofDigits_reverse_zero_cons]

theorem Digits.filter_underscore {s : List Char} {ds : List Nat} (h : Digits s ds) :
    Digits (s.filter (· != '_')) ds := by
  have hkeep {c : Char} {d : Nat} (hc : Digit c d) : (c != '_') = true := by
    simpa using hc.ne_of_digitValue? (by decide)
  induction h with
  | last hc => simpa [hkeep hc] using Digits.last hc
  | next hc _ ih => simpa [hkeep hc] using Digits.next hc ih
  | underscore hc _ ih => simpa [hkeep hc] using Digits.next hc ih

/-- Within the limit, zeros in front and underscores between the digits do not change what is
read. -/
theorem readInteger?_zeros {sign digits : List Char} {unit : Int} {ds : List Nat}
    (hsign : Sign sign unit) (hdigits : Digits digits ds) {k : Nat} (hk : k + ds.length ≤ 4300) :
    readInteger? (String.ofList (sign ++ (List.replicate k '0' ++ digits))) =
      readInteger? (String.ofList (sign ++ digits.filter (· != '_'))) := by
  obtain ⟨hzeros, hvalue⟩ := hdigits.zeros k
  have hlong : ShortNumeral (sign ++ (List.replicate k '0' ++ digits)) (unit * decimal ds) := by
    refine ⟨_, hvalue ▸ numeral_of_digits hsign hzeros, ?_⟩
    rwa [List.length_append, List.length_replicate]
  have hplain : ShortNumeral (sign ++ digits.filter (· != '_')) (unit * decimal ds) :=
    ⟨ds, numeral_of_digits hsign hdigits.filter_underscore, by omega⟩
  rw [← String.toList_ofList (l := sign ++ _), ← readInteger?_eq_some_iff] at hlong hplain
  rw [hlong, hplain]

end Sentential.Text

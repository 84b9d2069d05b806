import Mathlib.Algebra.Ring.Nat
import Mathlib.Data.List.Basic
import Mathlib.Data.List.Nodup
import Mathlib.Tactic.Common

/-!
# Texts for readers

Numbers as `printf` writes them, and what a reader gets back from them: a decimal number
(`decimal_injective`, `readDecimal_decimal`), one with its sign (`signed_injective`) and a byte in
two hexadecimal digits (`hexByte_append_inj`).

A report is a header with labelled lines behind it. The line with a label is found again
(`valueOf_labelled`), and where one report ends and the next begins is seen from the headers
(`reports_injective`).
-/

namespace Lib

abbrev Text : Type := List Char

/-! ## Numbers -/

/-- A number as `%u` writes it. -/
def decimal (n : Nat) : Text := Nat.toDigits 10 n

/-- A number as `%d` writes it. -/
def signed : Int → Text
  | .ofNat n => decimal n
  | .negSucc n => '-' :: decimal (n + 1)

/-- A number as `%0` with a width and `d` writes it. -/
def signedPadded (width : Nat) : Int → Text
  | .ofNat n => List.replicate (width - (decimal n).length) '0' ++ decimal n
  | .negSucc n =>
    '-' :: (List.replicate (width - (decimal (n + 1)).length - 1) '0' ++ decimal (n + 1))

/-- A number below 16 as a digit. -/
def hexDigit (n : Nat) : Char := "0123456789ABCDEF".toList.getD n '0'

/-- A byte as `%02X` writes it. -/
def hexByte (b : UInt8) : Text := [hexDigit (b.toNat / 16), hexDigit (b.toNat % 16)]

/-- The number that is written with these digits. -/
def readDecimal (digits : Text) : Option Nat :=
  if digits ≠ [] ∧ digits.all Char.isDigit then some (Nat.ofDigitChars 10 digits 0) else none

theorem isDigit_of_mem_decimal {n : Nat} {c : Char} (h : c ∈ decimal n) : c.isDigit = true :=
  Nat.isDigit_of_mem_toDigits (by decide) (by decide) h

theorem decimal_ne_nil (n : Nat) : decimal n ≠ [] := Nat.toDigits_ne_nil

theorem length_decimal_le {n k : Nat} (hk : 0 < k) (h : n < 10 ^ k) : (decimal n).length ≤ k :=
  (Nat.length_toDigits_le_iff (by decide) hk).mpr h

theorem readDecimal_decimal (n : Nat) : readDecimal (decimal n) = some n := by
  have hdigits : (decimal n).all Char.isDigit = true :=
    List.all_eq_true.mpr fun c hc => isDigit_of_mem_decimal hc
  rw [readDecimal, if_pos ⟨decimal_ne_nil n, hdigits⟩, decimal, Nat.ofDigitChars_ten_toDigits]

/-- Leading zeros do not matter. -/
theorem readDecimal_zeros (k n : Nat) :
    readDecimal (List.replicate k '0' ++ decimal n) = some n := by
  have hdigits : (List.replicate k '0' ++ decimal n).all Char.isDigit = true := by
    rw [List.all_append, Bool.and_eq_true]
    refine ⟨List.all_eq_true.mpr fun c hc => ?_, List.all_eq_true.mpr fun c hc => ?_⟩
    · rw [List.eq_of_mem_replicate hc]
      rfl
    · exact isDigit_of_mem_decimal hc
  have hne : List.replicate k '0' ++ decimal n ≠ [] := by
    simp [decimal_ne_nil]
  rw [readDecimal, if_pos ⟨hne, hdigits⟩, Nat.ofDigitChars_append, Nat.ofDigitChars_replicate_zero,
    Nat.mul_zero, decimal, Nat.ofDigitChars_ten_toDigits]

theorem decimal_injective : Function.Injective decimal := by
  intro n m h
  have hread := congrArg readDecimal h
  rw [readDecimal_decimal, readDecimal_decimal] at hread
  exact Option.some_inj.mp hread

theorem signed_injective : Function.Injective signed := by
  -- A sign is no digit.
  have hsign : ∀ n m : Nat, decimal n ≠ '-' :: decimal (m + 1) := by
    intro n m h
    have hminus : '-' ∈ decimal n := by
      rw [h]
      exact List.mem_cons_self
    exact absurd (isDigit_of_mem_decimal hminus) (by decide)
  intro i j h
  cases i with
  | ofNat n =>
    cases j with
    | ofNat m => rw [decimal_injective h]
    | negSucc m => exact absurd h (hsign n m)
  | negSucc n =>
    cases j with
    | ofNat m => exact absurd h.symm (hsign m n)
    | negSucc m =>
      have hsucc := decimal_injective (List.tail_eq_of_cons_eq h)
      rw [Nat.succ.inj hsucc]

theorem mem_signed {i : Int} {c : Char} (h : c ∈ signed i) : c = '-' ∨ c.isDigit = true := by
  cases i with
  | ofNat n => exact Or.inr (isDigit_of_mem_decimal h)
  | negSucc n =>
    rcases List.mem_cons.mp h with rfl | h
    · exact Or.inl rfl
    · exact Or.inr (isDigit_of_mem_decimal h)

theorem length_signed_le {i : Int} {k : Nat} (hk : 0 < k) (h : i.natAbs < 10 ^ k) :
    (signed i).length ≤ k + 1 := by
  cases i with
  | ofNat n => exact Nat.le_succ_of_le (length_decimal_le hk h)
  | negSucc n => exact Nat.succ_le_succ (length_decimal_le hk h)

theorem length_signedPadded_le (width : Nat) (i : Int) :
    (signedPadded width i).length ≤ width + (signed i).length := by
  cases i with
  | ofNat n =>
    simp only [signedPadded, signed, List.length_append, List.length_replicate]
    omega
  | negSucc n =>
    simp only [signedPadded, signed, List.length_cons, List.length_append, List.length_replicate]
    omega

theorem hexDigit_injOn : ∀ n < 16, ∀ m < 16, hexDigit n = hexDigit m → n = m := by decide

theorem hexByte_append_inj {a b : UInt8} {rest rest' : Text}
    (h : hexByte a ++ rest = hexByte b ++ rest') : a = b ∧ rest = rest' := by
  obtain ⟨hhigh, htail⟩ := List.cons.inj h
  obtain ⟨hlow, hrest⟩ := List.cons.inj htail
  have ha := a.toNat_lt
  have hb := b.toNat_lt
  have hdiv := hexDigit_injOn _ (by omega) _ (by omega) hhigh
  have hmod := hexDigit_injOn _ (by omega) _ (by omega) hlow
  exact ⟨UInt8.toNat.inj (by omega), hrest⟩

/-- Texts before the first separator. -/
theorem separator_inj {c : Char} {t u rest rest' : Text} (ht : c ∉ t) (hu : c ∉ u)
    (h : t ++ c :: rest = u ++ c :: rest') : t = u ∧ rest = rest' := by
  induction t generalizing u with
  | nil =>
    cases u with
    | nil => exact ⟨rfl, (List.cons.inj h).2⟩
    | cons d u => exact absurd ((List.cons.inj h).1 ▸ List.mem_cons_self) hu
  | cons d t ih =>
    cases u with
    | nil => exact absurd ((List.cons.inj h).1 ▸ List.mem_cons_self) ht
    | cons e u =>
      obtain ⟨rfl, htail⟩ := List.cons.inj h
      obtain ⟨rfl, hrest⟩ := ih (fun hc => ht (List.mem_cons_of_mem d hc))
        (fun hc => hu (List.mem_cons_of_mem d hc)) htail
      exact ⟨rfl, hrest⟩

/-! ## Labelled lines -/

/-- A label and the value behind it, if there is one. -/
abbrev Entry : Type := Text × Option Text

/-- The lines for the values there are. -/
def labelled (entries : List Entry) : List Text :=
  entries.flatMap fun e => (e.2.map (e.1 ++ ·)).toList

/-- The value in the line with this label. -/
def valueOf (label : Text) (lines : List Text) : Option Text :=
  (lines.find? fun line => line.take label.length = label).map (List.drop label.length)

/-- **Labels.** If the labels differ and have the same length, a value is found under its
label. -/
theorem valueOf_labelled {k : Nat} {entries : List Entry}
    (hlength : ∀ e ∈ entries, e.1.length = k) (hnodup : (entries.map Prod.fst).Nodup)
    {e : Entry} (he : e ∈ entries) : valueOf e.1 (labelled entries) = e.2 := by
  induction entries with
  | nil => cases he
  | cons first entries ih =>
    have hk := hlength first List.mem_cons_self
    have hrest := fun e he => hlength e (List.mem_cons_of_mem first he)
    obtain ⟨hfresh, hnodup⟩ := List.nodup_cons.mp hnodup
    have hfind : ∀ label : Text, label.length = k →
        valueOf label (labelled (first :: entries)) =
          if first.1 = label ∧ first.2.isSome then first.2
          else valueOf label (labelled entries) := by
      intro label hlabel
      obtain ⟨l, value⟩ := first
      cases value with
      | none => simp [labelled]
      | some text =>
        have hl : l.length = label.length := hk.trans hlabel.symm
        have hlines : labelled ((l, some text) :: entries) = (l ++ text) :: labelled entries := rfl
        rw [hlines, valueOf, List.find?_cons, ← hl, List.take_left]
        by_cases heq : l = label
        · subst heq
          simp
        · simp [heq, valueOf, hl]
    rcases List.mem_cons.mp he with rfl | he
    · rw [hfind _ hk]
      cases hvalue : e.2 with
      | some text => rw [if_pos ⟨rfl, rfl⟩]
      | none =>
        rw [if_neg (by simp)]
        -- Nothing else has this label.
        have hnone : ∀ line ∈ labelled entries, line.take e.1.length ≠ e.1 := by
          intro line hline htake
          obtain ⟨e', he', hmem⟩ := List.mem_flatMap.mp hline
          obtain ⟨text, -, rfl⟩ := Option.map_eq_some_iff.mp (Option.mem_toList.mp hmem)
          rw [hk, ← hrest e' he', List.take_left] at htake
          exact hfresh (List.mem_map.mpr ⟨e', he', htake⟩)
        rw [valueOf, List.find?_eq_none.mpr (by simpa using hnone)]
        rfl
    · have hne : first.1 ≠ e.1 := fun heq => hfresh (heq ▸ List.mem_map_of_mem he)
      rw [hfind _ (hrest e he), if_neg fun h => hne h.1]
      exact ih hrest hnodup he

/-- The values are read back from the lines. -/
theorem labelled_injective {k : Nat} {entries entries' : List Entry}
    (hlength : ∀ e ∈ entries, e.1.length = k) (hnodup : (entries.map Prod.fst).Nodup)
    (hlabels : entries.map Prod.fst = entries'.map Prod.fst)
    (h : labelled entries = labelled entries') : entries = entries' := by
  have hread : ∀ entries : List Entry, (∀ l ∈ entries.map Prod.fst, l.length = k) →
      (entries.map Prod.fst).Nodup →
      entries.map Prod.snd = (entries.map Prod.fst).map fun l => valueOf l (labelled entries) := by
    intro entries hlength hnodup
    rw [List.map_map]
    have hentries : ∀ e ∈ entries, e.1.length = k := fun e he =>
      hlength _ (List.mem_map_of_mem he)
    exact List.map_congr_left fun e he => (valueOf_labelled hentries hnodup he).symm
  have hlength : ∀ l ∈ entries.map Prod.fst, l.length = k := by
    intro l hl
    obtain ⟨e, he, rfl⟩ := List.mem_map.mp hl
    exact hlength e he
  have hvalues : entries.map Prod.snd = entries'.map Prod.snd := by
    rw [hread entries hlength hnodup, hread entries' (hlabels ▸ hlength) (hlabels ▸ hnodup), h,
      hlabels]
  rw [← List.zip_unzip entries, ← List.zip_unzip entries', List.unzip_eq_map, List.unzip_eq_map,
    hlabels, hvalues]

/-! ## Reports -/

/-- A header, and lines that are none. -/
structure IsReport (isHeader : Text → Bool) (lines : List Text) : Prop where
  header : ∃ h details, lines = h :: details ∧ isHeader h = true ∧
    ∀ d ∈ details, isHeader d = false

theorem takeWhile_details {isHeader : Text → Bool} {details : List Text}
    (hdetails : ∀ d ∈ details, isHeader d = false) {rest : List Text}
    (hrest : ∀ h ∈ rest.head?, isHeader h = true) :
    (details ++ rest).takeWhile (fun line => !isHeader line) = details ∧
      (details ++ rest).dropWhile (fun line => !isHeader line) = rest := by
  induction details with
  | nil =>
    cases rest with
    | nil => exact ⟨rfl, rfl⟩
    | cons h rest =>
      have hh : isHeader h = true := hrest h rfl
      simp [hh]
  | cons d details ih =>
    have hd := hdetails d List.mem_cons_self
    obtain ⟨htake, hdrop⟩ := ih fun d hd => hdetails d (List.mem_cons_of_mem _ hd)
    simp [hd, htake, hdrop]

/-- **Reports.** Reports one behind the other are told apart. -/
theorem reports_injective {isHeader : Text → Bool} {reports reports' : List (List Text)}
    (h : ∀ r ∈ reports, IsReport isHeader r) (h' : ∀ r ∈ reports', IsReport isHeader r)
    (hsame : reports.flatten = reports'.flatten) : reports = reports' := by
  have hhead : ∀ reports : List (List Text), (∀ r ∈ reports, IsReport isHeader r) →
      ∀ line ∈ reports.flatten.head?, isHeader line = true := by
    intro reports h line hline
    cases reports with
    | nil => cases hline
    | cons r reports =>
      obtain ⟨header, details, rfl, hheader, -⟩ := (h r List.mem_cons_self).header
      cases hline
      exact hheader
  induction reports generalizing reports' with
  | nil =>
    cases reports' with
    | nil => rfl
    | cons r reports' =>
      obtain ⟨header, details, rfl, -⟩ := (h' r List.mem_cons_self).header
      cases hsame
  | cons r reports ih =>
    obtain ⟨header, details, rfl, -, hdetails⟩ := (h r List.mem_cons_self).header
    cases reports' with
    | nil => cases hsame
    | cons r' reports' =>
      obtain ⟨header', details', rfl, -, hdetails'⟩ := (h' r' List.mem_cons_self).header
      have hrest := fun r hr => h r (List.mem_cons_of_mem _ hr)
      have hrest' := fun r hr => h' r (List.mem_cons_of_mem _ hr)
      obtain ⟨rfl, htail⟩ := List.cons.inj hsame
      obtain ⟨htake, hdrop⟩ := takeWhile_details hdetails (hhead reports hrest)
      obtain ⟨htake', hdrop'⟩ := takeWhile_details hdetails' (hhead reports' hrest')
      have htail : details ++ reports.flatten = details' ++ reports'.flatten := htail
      rw [htail] at htake hdrop
      rw [htake] at htake'
      rw [hdrop] at hdrop'
      rw [htake', ih hrest hrest' hdrop']

end Lib

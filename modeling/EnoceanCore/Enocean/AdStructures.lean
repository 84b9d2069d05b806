import EnoceanCore.Enocean.Advertisement

/-!
# Lists of AD structures

An advertisement is a list of structures (`AdStructure`), laid out one after another. What
`extract_manufacturer_data` should return is the data of the first EnOcean structure of the list
(`recordPayload`). The loop reads the two bytes of a company id before it looks at the length of
the structure, so a manufacturer structure with less than two bytes borrows from the next one
(`Misread`). If what it borrows spells the EnOcean id the loop gives up; this is the only way a
record is missed (`recordFound_iff`).
-/

namespace EnoceanCore.Enocean

open Lib

/-! ## The list -/

/-- A structure; its length is a byte. -/
structure AdStructure where
  type : UInt8
  data : List UInt8
  short : data.length + 1 ≤ 255

namespace AdStructure

/-- The bytes of a structure. -/
def encode (s : AdStructure) : List UInt8 :=
  UInt8.ofNat (s.data.length + 1) :: s.type :: s.data

/-- A manufacturer structure with the company id of EnOcean. -/
def IsRecord (s : AdStructure) : Prop := s.type = 0xFF ∧ s.data.take 2 = [0xDA, 0x03]

instance (s : AdStructure) : Decidable s.IsRecord := inferInstanceAs (Decidable (_ ∧ _))

/-- A manufacturer structure too short for a company id, which becomes that of EnOcean with the
bytes that follow. -/
def Misread (s : AdStructure) (following : List UInt8) : Prop :=
  s.type = 0xFF ∧ s.data.length < 2 ∧ (s.data ++ following).take 2 = [0xDA, 0x03]

instance (s : AdStructure) (following : List UInt8) : Decidable (s.Misread following) :=
  inferInstanceAs (Decidable (_ ∧ _ ∧ _))

end AdStructure

/-- The structures one after another, and what comes after them. -/
def layout (structures : List AdStructure) (rest : List UInt8) : List UInt8 :=
  structures.flatMap AdStructure.encode ++ rest

/-- Nothing comes after the structures, or a zero length byte and any bytes. -/
def Terminated (rest : List UInt8) : Prop := rest = [] ∨ ∃ junk, rest = 0 :: junk

/-- The bytes after the company id in the first EnOcean structure, none if there is none. -/
def recordPayload (structures : List AdStructure) : List UInt8 :=
  match structures.find? fun s => decide s.IsRecord with
  | some s => s.data.drop 2
  | none => []

/-- Before the first record, which is not empty, stands a structure that is misread. -/
def MissesRecord (structures : List AdStructure) (rest : List UInt8) : Prop :=
  ∃ before s after, structures = before ++ s :: after ∧ (∀ t ∈ before, ¬ t.IsRecord) ∧
    s.Misread (layout after rest) ∧ recordPayload after ≠ []

theorem layout_cons (s : AdStructure) (structures : List AdStructure) (rest : List UInt8) :
    layout (s :: structures) rest =
      UInt8.ofNat (s.data.length + 1) :: s.type :: (s.data ++ layout structures rest) := by
  simp [layout, AdStructure.encode]

theorem recordPayload_of_isRecord {s : AdStructure} (h : s.IsRecord)
    (structures : List AdStructure) : recordPayload (s :: structures) = s.data.drop 2 := by
  rw [recordPayload, List.find?_cons, decide_eq_true h]

theorem recordPayload_of_not_isRecord {s : AdStructure} (h : ¬ s.IsRecord)
    (structures : List AdStructure) :
    recordPayload (s :: structures) = recordPayload structures := by
  rw [recordPayload, List.find?_cons, decide_eq_false h]
  rfl

theorem AdStructure.Misread.not_isRecord {s : AdStructure} {following : List UInt8}
    (h : s.Misread following) : ¬ s.IsRecord := by
  intro hrecord
  rcases hrecord with ⟨-, hid⟩
  have hlen := congrArg List.length hid
  have hshort := h.2.1
  rw [List.length_take] at hlen
  simp only [List.length_cons, List.length_nil] at hlen
  omega

/-! ## Missed records -/

theorem not_missesRecord_nil (rest : List UInt8) : ¬ MissesRecord [] rest := by
  intro hmisses
  rcases hmisses with ⟨before, s, after, heq, -⟩
  exact absurd heq (by simp)

/-- A record that is missed is not empty. -/
theorem MissesRecord.recordPayload_ne_nil {structures : List AdStructure} {rest : List UInt8}
    (h : MissesRecord structures rest) : recordPayload structures ≠ [] := by
  obtain ⟨before, s, after, rfl, hbefore, hmisread, hpayload⟩ := h
  induction before with
  | nil =>
    rw [List.nil_append, recordPayload_of_not_isRecord hmisread.not_isRecord]
    exact hpayload
  | cons t before ih =>
    rw [List.cons_append, recordPayload_of_not_isRecord (hbefore t List.mem_cons_self)]
    exact ih fun u hu => hbefore u (List.mem_cons_of_mem t hu)

theorem missesRecord_cons {s : AdStructure} {structures : List AdStructure}
    {rest : List UInt8} :
    MissesRecord (s :: structures) rest ↔
      s.Misread (layout structures rest) ∧ recordPayload structures ≠ [] ∨
        ¬ s.IsRecord ∧ MissesRecord structures rest := by
  constructor
  · intro hmisses
    rcases hmisses with ⟨before, t, after, heq, hbefore, hmisread, hpayload⟩
    cases before with
    | nil =>
      cases heq
      exact Or.inl ⟨hmisread, hpayload⟩
    | cons u before =>
      cases heq
      exact Or.inr ⟨hbefore s List.mem_cons_self, before, t, after, rfl,
        fun v hv => hbefore v (List.mem_cons_of_mem s hv), hmisread, hpayload⟩
  · intro hcase
    rcases hcase with
      ⟨hmisread, hpayload⟩ | ⟨hno, before, t, after, rfl, hbefore, hmisread, hpayload⟩
    · exact ⟨[], s, structures, rfl, nofun, hmisread, hpayload⟩
    · refine ⟨s :: before, t, after, rfl, ?_, hmisread, hpayload⟩
      intro u hu
      rcases List.mem_cons.mp hu with rfl | hu
      · exact hno
      · exact hbefore u hu

/-! ## One structure in the data -/

/-- The structure `s` stands behind `front`. -/
def StandsBehind (data : Span) (front : List UInt8) (s : AdStructure)
    (following : List UInt8) : Prop :=
  data.bytes = front ++ UInt8.ofNat (s.data.length + 1) :: s.type :: (s.data ++ following)

section Structure

variable {data : Span} {front following : List UInt8} {s : AdStructure}

theorem StandsBehind.size (h : StandsBehind data front s following) :
    data.size = front.length + 2 + (s.data ++ following).length := by
  rw [Span.size_of_bytes h]
  simp only [List.length_append, List.length_cons]
  omega

theorem StandsBehind.adLen (h : StandsBehind data front s following) :
    adLen data front.length = s.data.length + 1 := by
  have hshort := s.short
  rw [Enocean.adLen, Span.byte_of_append h, UInt8.toNat_ofNat_of_lt']
  exact Nat.lt_of_le_of_lt hshort (by decide)

theorem StandsBehind.type (h : StandsBehind data front s following) :
    data.byte (front.length + 1) = s.type := by
  have hbytes : data.bytes =
      (front ++ [UInt8.ofNat (s.data.length + 1)]) ++ s.type :: (s.data ++ following) := by
    rw [List.append_assoc]
    exact h
  have htype := Span.byte_of_append hbytes
  rw [List.length_append] at htype
  exact htype

/-- The two bytes behind the type are read as a company id, whichever structure they are in. -/
theorem StandsBehind.companyId_iff (h : StandsBehind data front s following)
    (hroom : 2 ≤ (s.data ++ following).length) :
    companyId data front.length = kEnoceanManufacturerId ↔
      (s.data ++ following).take 2 = [0xDA, 0x03] := by
  obtain ⟨x, y, more, hxy⟩ : ∃ x y more, s.data ++ following = x :: y :: more := by
    match s.data ++ following, hroom with
    | x :: y :: more, _ => exact ⟨x, y, more, rfl⟩
  have hlow : data.bytes =
      (front ++ [UInt8.ofNat (s.data.length + 1), s.type]) ++ x :: (y :: more) := by
    rw [List.append_assoc, ← hxy]
    exact h
  have hhigh : data.bytes =
      (front ++ [UInt8.ofNat (s.data.length + 1), s.type, x]) ++ y :: more := by
    rw [List.append_assoc]
    rw [List.append_assoc] at hlow
    exact hlow
  have hx := Span.byte_of_append hlow
  have hy := Span.byte_of_append hhigh
  rw [List.length_append] at hx hy
  have hid : (kEnoceanManufacturerId : UInt16) = leHalf 0xDA 0x03 := by decide
  rw [companyId, show data.byte (front.length + 2) = x from hx,
    show data.byte (front.length + 3) = y from hy, hid, leHalf_inj, hxy]
  simp

theorem StandsBehind.enters (h : StandsBehind data front s following) :
    Enters data front.length := by
  have hsize := h.size
  have hlen := h.adLen
  rw [List.length_append] at hsize
  refine ⟨by omega, fun hzero => ?_, by omega⟩
  rw [Enocean.adLen, hzero] at hlen
  exact absurd hlen (by simp)

/-- The loop steps over the structure. -/
theorem StandsBehind.skips_iff (h : StandsBehind data front s following) :
    Skips data front.length ↔
      (s.type = 0xFF → 2 ≤ (s.data ++ following).length ∧
        (s.data ++ following).take 2 ≠ [0xDA, 0x03]) := by
  rw [Skips, h.type]
  have hroom : 3 ≤ data.size - (front.length + 1) ↔ 2 ≤ (s.data ++ following).length := by
    rw [h.size]
    omega
  constructor
  · intro hskips htype
    obtain ⟨hthree, hid⟩ := hskips.2 htype
    exact ⟨hroom.mp hthree, fun heq => hid ((h.companyId_iff (hroom.mp hthree)).mpr heq)⟩
  · intro hall
    refine ⟨h.enters, fun htype => ?_⟩
    obtain ⟨htwo, hne⟩ := hall htype
    exact ⟨hroom.mpr htwo, fun heq => hne ((h.companyId_iff htwo).mp heq)⟩

/-- The loop selects the structure if it is a record. -/
theorem StandsBehind.selects (h : StandsBehind data front s following) (hrecord : s.IsRecord) :
    Selects data front.length := by
  obtain ⟨htype, hid⟩ := hrecord
  have htwo : 2 ≤ s.data.length := by
    have hlen := congrArg List.length hid
    rw [List.length_take] at hlen
    simp only [List.length_cons, List.length_nil] at hlen
    omega
  have hroom : 2 ≤ (s.data ++ following).length := by
    rw [List.length_append]
    omega
  refine ⟨h.enters, h.type.trans htype, ?_, (h.companyId_iff hroom).mpr ?_, ?_⟩
  · rw [h.size]
    omega
  · rw [List.take_append_of_le_length htwo]
    exact hid
  · rw [h.adLen]
    omega

theorem StandsBehind.payloadAt (h : StandsBehind data front s following) (hrecord : s.IsRecord) :
    (payloadAt data front.length).bytes = s.data.drop 2 := by
  have hsplit : s.data ++ following = [0xDA, 0x03] ++ (s.data.drop 2 ++ following) := by
    rw [← List.append_assoc, ← hrecord.2, List.take_append_drop]
  have hbytes : data.bytes =
      (front ++ [UInt8.ofNat (s.data.length + 1), s.type, 0xDA, 0x03]) ++
        (s.data.drop 2 ++ following) := by
    rw [StandsBehind, hsplit] at h
    rw [List.append_assoc]
    exact h
  have hslice := Span.bytes_slice_of_append hbytes
  rw [List.length_append, List.length_drop] at hslice
  rw [Enocean.payloadAt, h.adLen]
  exact hslice

/-- Within its own structure the company id is read correctly. -/
theorem StandsBehind.isRecord_of_selects (h : StandsBehind data front s following)
    (hsel : Selects data front.length) : s.IsRecord := by
  obtain ⟨-, htype, -, hid, hlen⟩ := hsel
  rw [h.type] at htype
  rw [h.adLen] at hlen
  have htwo : 2 ≤ s.data.length := by omega
  have hroom : 2 ≤ (s.data ++ following).length := by
    rw [List.length_append]
    omega
  rw [h.companyId_iff hroom, List.take_append_of_le_length htwo] at hid
  exact ⟨htype, hid⟩

end Structure

/-! ## The whole list -/

theorem extractLoop_of_skips {data : Span} {i : Nat} (h : Skips data i) :
    (extractLoop data i).val = (extractLoop data (i + 1 + adLen data i)).val := by
  cases extractLoop_step data i with
  | stop hno => exact absurd h hno
  | select hsel => exact absurd h hsel.not_skips
  | skip _ hval => exact hval

theorem extractLoop_of_stops {data : Span} {i : Nat} (hskip : ¬ Skips data i)
    (hsel : ¬ Selects data i) : (extractLoop data i).val = Span.empty := by
  cases extractLoop_step data i with
  | stop _ _ hval => exact hval
  | select h => exact absurd h hsel
  | skip h => exact absurd h hskip

/-- Behind the structures the loop ends. -/
theorem extractLoop_terminated {data : Span} {front rest : List UInt8} (hrest : Terminated rest)
    (h : data.bytes = front ++ rest) : (extractLoop data front.length).val = Span.empty := by
  rcases hrest with rfl | ⟨junk, rfl⟩
  · apply extractLoop_last
    rw [Span.size_of_bytes h, List.append_nil]
    exact Nat.le_succ _
  · have hzero := Span.byte_of_append h
    have hno : ¬ Enters data front.length := fun hent => hent.2.1 hzero
    exact extractLoop_of_stops (fun h => hno h.1) fun h => hno h.1

/-- The loop gives up at a structure that is misread, or that is the last one. -/
theorem StandsBehind.misread_or_last {data : Span} {front rest : List UInt8} {s : AdStructure}
    {structures : List AdStructure} (h : StandsBehind data front s (layout structures rest))
    (hrecord : ¬ s.IsRecord) (hskip : ¬ Skips data front.length) :
    s.Misread (layout structures rest) ∨ structures = [] := by
  rw [h.skips_iff] at hskip
  obtain ⟨htype, hstop⟩ := Classical.not_imp.mp hskip
  by_cases htwo : 2 ≤ (s.data ++ layout structures rest).length
  · left
    have hid : (s.data ++ layout structures rest).take 2 = [0xDA, 0x03] := by
      by_contra hne
      exact hstop ⟨htwo, hne⟩
    refine ⟨htype, ?_, hid⟩
    by_contra hlong
    rw [List.take_append_of_le_length (Nat.le_of_not_lt hlong)] at hid
    exact hrecord ⟨htype, hid⟩
  · right
    cases structures with
    | nil => rfl
    | cons t structures =>
      rw [layout_cons] at htwo
      simp only [List.length_append, List.length_cons] at htwo
      omega

/-- The loop on a list of structures, by its first structure, if it finds nothing in what follows
a list without a record. -/
theorem extractLoop_layout {data : Span} {rest : List UInt8} (structures : List AdStructure)
    (hend : (∀ s ∈ structures, ¬ s.IsRecord) → ∀ front, data.bytes = front ++ rest →
      (extractLoop data front.length).val = Span.empty)
    (front : List UInt8) (h : data.bytes = front ++ layout structures rest) :
    (extractLoop data front.length).val.bytes = recordPayload structures ↔
      ¬ MissesRecord structures rest := by
  induction structures generalizing front with
  | nil =>
    refine iff_of_true ?_ (not_missesRecord_nil rest)
    rw [hend (fun s hs => (List.not_mem_nil hs).elim) front h]
    rfl
  | cons s structures ih =>
    rw [layout_cons] at h
    have hstands : StandsBehind data front s (layout structures rest) := h
    rw [missesRecord_cons]
    by_cases hrecord : s.IsRecord
    · have hno : ¬ s.Misread (layout structures rest) := fun h => h.not_isRecord hrecord
      rw [recordPayload_of_isRecord hrecord,
        extractLoop_of_walk (.here front.length) (hstands.selects hrecord)]
      apply iff_of_true (hstands.payloadAt hrecord)
      intro hcase
      rcases hcase with hmisread | hmisses
      · exact hno hmisread.1
      · exact hmisses.1 hrecord
    · have hsel : ¬ Selects data front.length := fun h => hrecord (hstands.isRecord_of_selects h)
      rw [recordPayload_of_not_isRecord hrecord]
      by_cases hskip : Skips data front.length
      · -- the structure is stepped over, and not misread
        have hnext : front.length + 1 + adLen data front.length = (front ++ s.encode).length := by
          rw [hstands.adLen, List.length_append, AdStructure.encode]
          simp only [List.length_cons]
          omega
        have hbytes : data.bytes = (front ++ s.encode) ++ layout structures rest := by
          rw [List.append_assoc]
          exact h
        have hno : ¬ s.Misread (layout structures rest) := by
          intro hmisread
          rcases hmisread with ⟨htype, -, hid⟩
          exact (hstands.skips_iff.mp hskip htype).2 hid
        have hend' : (∀ t ∈ structures, ¬ t.IsRecord) → ∀ front, data.bytes = front ++ rest →
            (extractLoop data front.length).val = Span.empty :=
          fun hnone => hend (List.forall_mem_cons.mpr ⟨hrecord, hnone⟩)
        rw [extractLoop_of_skips hskip, hnext, ih hend' (front ++ s.encode) hbytes]
        simp only [hno, false_and, false_or, hrecord, not_false_eq_true, true_and]
      · -- the loop gives up
        rw [extractLoop_of_stops hskip hsel]
        rcases hstands.misread_or_last hrecord hskip with hmisread | rfl
        · constructor
          · rintro hnil (⟨-, hne⟩ | ⟨-, hmisses⟩)
            · exact hne hnil.symm
            · exact hmisses.recordPayload_ne_nil hnil.symm
          · intro hno
            by_contra hne
            exact hno (Or.inl ⟨hmisread, fun hnil => hne hnil.symm⟩)
        · apply iff_of_true rfl
          intro hcase
          rcases hcase with ⟨-, hne⟩ | ⟨-, hmisses⟩
          · exact hne rfl
          · exact not_missesRecord_nil rest hmisses

/-- **Finding the record.** On a list of structures, laid out one after another and followed by
nothing or by a zero byte, the result is the payload of the first EnOcean structure of the list,
and empty if there is none, if and only if no structure before a record that is not empty is
misread. -/
theorem recordFound_iff (structures : List AdStructure) (rest : List UInt8)
    (hrest : Terminated rest) (data : Span) (h : data.bytes = layout structures rest) :
    (extractManufacturerData data).val.bytes = recordPayload structures ↔
      ¬ MissesRecord structures rest :=
  extractLoop_layout structures (fun _ _ => extractLoop_terminated hrest) [] h

/-- Flags and a record, then a zero byte. -/
theorem recordFound_flags :
    (extractManufacturerData (.ofList (layout
      [⟨0x01, [0x06], by decide⟩, ⟨0xFF, [0xDA, 0x03, 1, 2, 3], by decide⟩] [0, 9]))).val.bytes =
      [1, 2, 3] := by
  apply (recordFound_iff [⟨0x01, [0x06], by decide⟩, ⟨0xFF, [0xDA, 0x03, 1, 2, 3], by decide⟩]
    [0, 9] (Or.inr ⟨[9], rfl⟩) _ (by decide)).mpr
  rw [missesRecord_cons, missesRecord_cons]
  intro hcase
  rcases hcase with ⟨hmisread, -⟩ | ⟨-, ⟨hmisread, -⟩ | ⟨-, hmisses⟩⟩
  · exact absurd hmisread (by decide)
  · exact absurd hmisread (by decide)
  · exact not_missesRecord_nil [0, 9] hmisses

/-- A manufacturer structure with the single byte `DA`, then a structure of length three: the
record behind them is not found. -/
theorem not_recordFound_borrowed :
    ¬ ∀ (structures : List AdStructure) (rest : List UInt8), Terminated rest →
      (extractManufacturerData (.ofList (layout structures rest))).val.bytes =
        recordPayload structures := by
  intro h
  have hfound := h [⟨0xFF, [0xDA], by decide⟩, ⟨0x03, [0x12, 0x34], by decide⟩,
    ⟨0xFF, [0xDA, 0x03, 1, 2, 3], by decide⟩] [] (Or.inl rfl)
  exact absurd hfound (by decide +kernel)

end EnoceanCore.Enocean

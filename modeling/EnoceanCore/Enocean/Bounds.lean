import EnoceanCore.Enocean.Driver

/-!
# Reads of the advertisement data

What `process_advertisement` reads is confined to the advertisement exactly when the walk
over the AD structures meets none that ends one byte after the data
(`processAdvertisement_confined_iff`). The handlers add nothing to that: a payload taken
from within the data is read within the data (`payloadOf_within`).
-/

namespace EnoceanCore.Enocean

open Lib

/-- The payload of a structure that ends within the data lies within the data. -/
theorem within_payloadAt {data : Span} {p : Nat} (hsel : Selects data p)
    (hfit : ¬ Overruns data p) : (payloadAt data p).extent.Within data.extent := by
  have hend := hsel.1.2.2
  have hne : p + adLen data p ≠ data.size := fun h => hfit ⟨hsel.1, h, Or.inr hsel⟩
  have hlen := hsel.2.2.2.2
  apply Span.within_slice (Extent.Within.refl _)
  omega

theorem payloadOf_within {data : Span} (h : ∀ p, Walk data 0 p → ¬ Overruns data p) :
    (payloadOf data).size = 0 ∨ (payloadOf data).extent.Within data.extent := by
  rcases extractManufacturerData_cases data with hempty | ⟨p, hwalk, hsel, hval⟩
  · left
    rw [payloadOf, hempty]
    rfl
  · right
    rw [payloadOf, hval]
    exact within_payloadAt hsel (h p hwalk)

/-- **Bounds.** For an advertisement that passes the first tests, every index and every
subspan taken is in range if and only if no AD structure the walk gets to ends one byte after
the data. -/
theorem processAdvertisement_confined_iff (crypto : CryptoBackend) (driver : EnoceanDriver)
    (addr : List UInt8) (addrType advType : UInt8) (rssi : Int8) (data : Span) :
    Confined data.extent (processAdvertisement crypto driver addr addrType advType rssi data) ↔
      (Listens driver addr addrType advType → ∀ p, Walk data 0 p → ¬ Overruns data p) := by
  unfold processAdvertisement
  by_cases hlisten : Listens driver addr addrType advType
  swap
  · refine iff_of_true ?_ (fun h => absurd h hlisten)
    refine confined_ite (fun _ => confined_pure _) fun hinit => ?_
    refine confined_ite (fun _ => confined_pure _) fun hlen => ?_
    refine confined_ite (fun _ => confined_pure _) fun htypes => ?_
    refine absurd ⟨by simpa using hinit, by simpa using hlen, ?_⟩ hlisten
    simpa using htypes
  obtain ⟨hinit, hlen, rfl, rfl⟩ := id hlisten
  simp only [hinit, hlen, Bool.not_true, Bool.false_eq_true, ne_eq, not_true_eq_false, or_self,
    if_false, confined_bind, extractManufacturerData_confined_iff, val_extractManufacturerData,
    hlisten, true_imp_iff, and_iff_left_iff_imp]
  intro h
  refine confined_ite (fun _ => confined_pure _) fun hne => ?_
  have hp := (payloadOf_within h).resolve_left hne
  refine confined_ite (fun _ => confined_pure _) fun _ => ?_
  cases findDevice driver.devices addr with
  | some i => exact (handleData_confined _ _ _ hp).seq (confined_pure _)
  | none =>
    refine confined_ite (fun _ => ?_) (fun _ => confined_pure _)
    exact (handleCommissioning_confined _ _ _ _ hp).seq (confined_pure _)

/-- The one-byte advertisement `01` promises a type byte that is not there. -/
theorem not_confined_truncated :
    ¬ ∀ (crypto : CryptoBackend) (driver : EnoceanDriver) (addr : List UInt8)
      (addrType advType : UInt8) (rssi : Int8) (data : Span),
      Confined data.extent
        (processAdvertisement crypto driver addr addrType advType rssi data) := by
  intro h
  have hread : Action.access (.read ⟨0, 1⟩ 1) ∈
      (processAdvertisement (fun _ => true) (init (construct ⟨true, true, true⟩))
        [0, 0, 0, 0, 0, 0] kAddrRandom kAdvNonconnInd 0 (.ofList [1])).log := by
    decide +kernel
  exact absurd (h _ _ _ _ _ _ _ _ hread _ rfl).1 (by decide)

end EnoceanCore.Enocean

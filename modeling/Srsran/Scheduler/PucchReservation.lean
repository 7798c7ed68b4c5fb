import Srsran.Scheduler.PucchResourceManager

/-! A guard as a transaction on the PUCCH resources of one UE in one slot. -/
namespace Srsran.Scheduler
open Ran Checked PucchResourceManager PucchCollisionManager
open PucchCollisionManager (ringPos)

namespace PucchMove

def cellResId : PucchMove → Nat
  | reserved _ cellResId => cellResId
  | released _ cellResId => cellResId

def usage : PucchMove → PucchUsage
  | reserved usage _ => usage
  | released usage _ => usage

def isReservation : PucchMove → Bool
  | reserved _ _ => true
  | released _ _ => false

def record : PucchMove → Option Nat
  | reserved _ cellResId => some cellResId
  | released _ _ => none

end PucchMove

def latestOf (journal : List PucchMove) (cellResId : Nat) : Option PucchMove :=
  journal.find? fun move => move.cellResId == cellResId

/-- Reserved and not released since. -/
def Standing (journal : List PucchMove) (cellResId : Nat) : Prop :=
  ∃ move, latestOf journal cellResId = some move ∧ move.isReservation = true

/-- Released and not reserved since. -/
def GivenUp (journal : List PucchMove) (cellResId : Nat) : Prop :=
  ∃ move, latestOf journal cellResId = some move ∧ move.isReservation = false

/-- The resource that a usage has on record: that of its latest move, if this is a reservation. -/
def recordOf (journal : List PucchMove) (usage : PucchUsage) : Option Nat :=
  (journal.find? fun move => move.usage == usage).bind PucchMove.record

/-- No record of a standing reservation was lost to another move of its usage. -/
def Tracked (journal : List PucchMove) : Prop :=
  ∀ cellResId, Standing journal cellResId → ∃ usage, recordOf journal usage = some cellResId

/-- The resource on record for the first HARQ resource set, where the second one has one too. -/
def Superseded (journal : List PucchMove) (cellResId : Nat) : Prop :=
  recordOf journal (.harqSet .set0) = some cellResId ∧ recordOf journal (.harqSet .set1) ≠ none

namespace PucchResourceManager

/-- Whether a dedicated resource is in use in a slot, for the collision manager. -/
def inUse (m : PucchResourceManager) (sl : SlotPoint) (cellResId : Nat) : Bool :=
  m.collisionManager.slotsCtx (ringPos sl) (nofCommonRes + cellResId)

/-- A resource that no UE uses in a slot. -/
def Free (m : PucchResourceManager) (sl : SlotPoint) (cellResId : Nat) : Prop :=
  m.user sl cellResId = invalidRnti ∧ m.inUse sl cellResId = false

def UsedBy (m : PucchResourceManager) (sl : SlotPoint) (rnti cellResId : Nat) : Prop :=
  m.user sl cellResId = rnti ∧ m.inUse sl cellResId = true

/-- A resource has the same user in a slot of two managers. -/
def SameUse (m m' : PucchResourceManager) (sl : SlotPoint) (cellResId : Nat) : Prop :=
  m'.user sl cellResId = m.user sl cellResId ∧ m'.inUse sl cellResId = m.inUse sl cellResId

/-- The other slots, the common resources and the resources of other UEs are as they were. -/
structure KeepsOthers (sl : SlotPoint) (rnti : Nat) (m m' : PucchResourceManager) : Prop where
  slots : ∀ pos, pos ≠ ringPos sl → m'.slotsCtx pos = m.slotsCtx pos ∧
    m'.collisionManager.slotsCtx pos = m.collisionManager.slotsCtx pos
  common : ∀ i < nofCommonRes, m'.collisionManager.slotsCtx (ringPos sl) i =
    m.collisionManager.slotsCtx (ringPos sl) i
  ues : ∀ cellResId, m.user sl cellResId ≠ invalidRnti → m.user sl cellResId ≠ rnti → m.SameUse m' sl cellResId

/-- The slot is as it was, but for the resources that were released. -/
structure Cancelled (sl : SlotPoint) (journal : List PucchMove) (m m' : PucchResourceManager) : Prop where
  freed : ∀ usage cellResId, .released usage cellResId ∈ journal → m'.Free sl cellResId
  kept : ∀ cellResId, (∀ usage, .released usage cellResId ∉ journal) → m.SameUse m' sl cellResId

/-- The slot with the standing reservations added and the resources that were given up removed. -/
structure Committed (sl : SlotPoint) (rnti : Nat) (journal : List PucchMove) (m m' : PucchResourceManager) :
    Prop where
  added : ∀ cellResId, Standing journal cellResId → ¬Superseded journal cellResId → m'.UsedBy sl rnti cellResId
  superseded : ∀ cellResId, Superseded journal cellResId → m'.Free sl cellResId
  removed : ∀ cellResId, GivenUp journal cellResId → m'.Free sl cellResId
  kept : ∀ cellResId, latestOf journal cellResId = none → m.SameUse m' sl cellResId

variable {m : PucchResourceManager} {sl : SlotPoint} {rnti : Nat}

/-- A manager with the user and the bit of one resource of one slot changed. -/
def write (m : PucchResourceManager) (sl : SlotPoint) (cellResId rnti : Nat) (inUse : Bool) :
    PucchResourceManager :=
  { m with collisionManager := m.collisionManager.write sl (nofCommonRes + cellResId) inUse }.setUser sl
    cellResId rnti

@[simp] theorem collisionManager_write (cellResId : Nat) (inUse : Bool) :
    (m.write sl cellResId rnti inUse).collisionManager =
      m.collisionManager.write sl (nofCommonRes + cellResId) inUse := rfl

theorem slotsCtx_write_of_ne {pos : Nat} (h : pos ≠ ringPos sl) (cellResId : Nat) (inUse : Bool) :
    (m.write sl cellResId rnti inUse).slotsCtx pos = m.slotsCtx pos := by
  simp [write, setUser, h]

theorem user_write (cellResId other : Nat) (inUse : Bool) :
    (m.write sl cellResId rnti inUse).user sl other = if other = cellResId then rnti else m.user sl other := by
  by_cases h : other = cellResId
  · subst h
    simp [write, setUser, user]
  · simp [write, setUser, user, h]

theorem inUse_write (cellResId other : Nat) (inUse : Bool) :
    (m.write sl cellResId rnti inUse).inUse sl other = if other = cellResId then inUse else m.inUse sl other := by
  simp [PucchResourceManager.inUse, slotsCtx_write]

end PucchResourceManager

section Journal
variable {journal : List PucchMove} {move : PucchMove} {usage : PucchUsage} {cellResId : Nat}

theorem latestOf_cons (move : PucchMove) (journal : List PucchMove) (cellResId : Nat) :
    latestOf (move :: journal) cellResId =
      if move.cellResId = cellResId then some move else latestOf journal cellResId := by
  rw [latestOf, List.find?_cons]
  split
  · rename_i h
    rw [if_pos (beq_iff_eq.mp h)]
  · rename_i h
    rw [if_neg (by simpa using h)]
    rfl

theorem recordOf_cons (move : PucchMove) (journal : List PucchMove) :
    recordOf (move :: journal) = Function.update (recordOf journal) move.usage move.record := by
  funext usage
  by_cases h : move.usage = usage
  · subst h
    simp [recordOf]
  · simp [recordOf, h, Function.update_of_ne (Ne.symm h)]

theorem latestOf_eq_none : latestOf journal cellResId = none ↔ ∀ move ∈ journal, move.cellResId ≠ cellResId := by
  simp [latestOf]

theorem mem_of_latestOf (h : latestOf journal cellResId = some move) :
    move ∈ journal ∧ move.cellResId = cellResId :=
  ⟨List.mem_of_find?_eq_some h, by simpa using List.find?_some h⟩

theorem mem_of_recordOf (h : recordOf journal usage = some cellResId) : .reserved usage cellResId ∈ journal := by
  obtain ⟨move, hmove, hrecord⟩ := Option.bind_eq_some_iff.mp h
  have husage := List.find?_some hmove
  cases move with
  | reserved usage' cellResId' =>
    cases hrecord
    have husage' : usage' = usage := beq_iff_eq.mp husage
    subst husage'
    exact List.mem_of_find?_eq_some hmove
  | released => cases hrecord

theorem tracked_of_nodup (h : (journal.map PucchMove.usage).Nodup) : Tracked journal := by
  rintro cellResId ⟨move, hlatest, hkind⟩
  obtain ⟨hmem, rfl⟩ := mem_of_latestOf hlatest
  refine ⟨move.usage, ?_⟩
  have hfind : (journal.find? fun other => other.usage == move.usage) = some move := by
    cases hother : journal.find? fun other => other.usage == move.usage with
    | none => simpa using List.find?_eq_none.mp hother move hmem
    | some other =>
      have husage : other.usage = move.usage := by simpa using List.find?_some hother
      rw [List.inj_on_of_nodup_map h (List.mem_of_find?_eq_some hother) hmem husage]
  rw [recordOf, hfind]
  cases move with
  | reserved => rfl
  | released => cases hkind

end Journal

namespace UeReservationGuard
variable {cellCfg : PucchCellConfiguration} {ueCfg : UeCellConfiguration} {rnti : Nat} {sl : SlotPoint}
  {g g' : UeReservationGuard}

/-- Accesses of the collision manager for the slot pass its check. -/
def InWindow (sl : SlotPoint) (g : UeReservationGuard) : Prop :=
  sl.lt (g.parent.collisionManager.lastSlInd.add ringAllocatorSize) = true

def after (rnti : Nat) (sl : SlotPoint) (g : UeReservationGuard) (move : PucchMove) : UeReservationGuard where
  parent := g.parent.write sl move.cellResId (if move.isReservation then rnti else invalidRnti) move.isReservation
  committed := g.committed
  reservations := Function.update g.reservations move.usage move.record
  journal := move :: g.journal

/-- A move that a call may make: only free resources are reserved, and only those of the UE released. -/
structure Enabled (cellCfg : PucchCellConfiguration) (rnti : Nat) (sl : SlotPoint) (g : UeReservationGuard)
    (move : PucchMove) : Prop where
  inWindow : g.InWindow sl
  cellResId_lt : move.cellResId < cellCfg.dedPucchResources.length
  reserved : move.isReservation = true → g.parent.Free sl move.cellResId
  released : move.isReservation = false → g.parent.user sl move.cellResId = rnti

/-- What a call does: nothing, or one move. -/
def Advances (cellCfg : PucchCellConfiguration) (rnti : Nat) (sl : SlotPoint) (g g' : UeReservationGuard) : Prop :=
  g' = g ∨ ∃ move, Enabled cellCfg rnti sl g move ∧ g' = g.after rnti sl move

variable {cm : PucchCollisionManager} {cell : PucchCellResources} {cellResId : Nat}

theorem allocDed_ok {r : Option PucchCollisionManager} (h : cm.allocDed cell sl cellResId = .ok r) :
    r = none ∨ r = some (cm.write sl (nofCommonRes + cellResId) true) ∧ cellResId < cell.dedicated.length ∧
      sl.lt (cm.lastSlInd.add ringAllocatorSize) = true ∧
      cm.slotsCtx (ringPos sl) (nofCommonRes + cellResId) = false := by
  rw [allocDed] at h
  split at h
  · rename_i hlt
    rcases allocResource_ok h with rfl | ⟨rfl, hfree⟩
    · exact .inl rfl
    · have hlength := cell.length_all
      have hself := cell.collisionMatrix_self (i := nofCommonRes + cellResId) (by omega)
      refine .inr ⟨rfl, hlt, ?_, hfree _ (by omega) hself⟩
      rw [allocResource] at h
      split at h
      · cases h
      · rename_i hwindow
        exact not_not.mp hwindow
  · cases h

theorem freeDed_ok {cm' : PucchCollisionManager} (h : cm.freeDed cell sl cellResId = .ok cm') :
    cm' = cm.write sl (nofCommonRes + cellResId) false ∧ cellResId < cell.dedicated.length ∧
      sl.lt (cm.lastSlInd.add ringAllocatorSize) = true := by
  rw [freeDed] at h
  split at h
  · rename_i hlt
    refine ⟨freeResource_ok h, hlt, ?_⟩
    rw [freeResource] at h
    split at h
    · cases h
    · rename_i hwindow
      exact not_not.mp hwindow
  · cases h

theorem freeDed_of_lt (hlt : cellResId < cell.dedicated.length)
    (hwindow : sl.lt (cm.lastSlInd.add ringAllocatorSize) = true) :
    cm.freeDed cell sl cellResId = .ok (cm.write sl (nofCommonRes + cellResId) false) := by
  rw [freeDed, if_pos hlt, freeResource, if_neg (not_not.mpr hwindow)]

theorem Advances.refl : Advances cellCfg rnti sl g g := .inl rfl

variable {usage : PucchUsage}

/-- One allocation: a collision, or a reservation of a free resource. -/
theorem allocate_ok {r : Option UeReservationGuard}
    (h : g.allocate cellCfg rnti sl usage cellResId = .ok r)
    (huser : g.parent.user sl cellResId = invalidRnti) :
    ∀ g', r = some g' → Advances cellCfg rnti sl g g' := by
  rw [allocate] at h
  obtain ⟨r', hr', h⟩ := bind_ok h
  rintro g' rfl
  rcases allocDed_ok hr' with rfl | ⟨rfl, hlt, hwindow, hfree⟩
  · cases h
  · cases h
    refine .inr ⟨.reserved usage cellResId, ⟨hwindow, ?_, fun _ => ⟨huser, hfree⟩, nofun⟩, rfl⟩
    rw [← cellCfg.nofDedicated]
    exact hlt

theorem release_ok (h : g.release cellCfg sl usage cellResId = .ok g')
    (huser : g.parent.user sl cellResId = rnti) : Advances cellCfg rnti sl g g' := by
  rw [release] at h
  obtain ⟨r', hr', h⟩ := bind_ok h
  cases h
  obtain ⟨rfl, hlt, hwindow⟩ := freeDed_ok hr'
  refine .inr ⟨.released usage cellResId, ⟨hwindow, ?_, nofun, fun _ => huser⟩, rfl⟩
  rw [← cellCfg.nofDedicated]
  exact hlt

variable {res : Option PucchResource}

theorem reserveResource_ok
    (h : g.reserveResource cellCfg ueCfg rnti sl usage cellResId = .ok (g', res)) :
    Advances cellCfg rnti sl g g' := by
  simp only [reserveResource] at h
  split at h
  · cases h
  split at h
  · cases h
    exact .refl
  rename_i hother
  split at h
  · split at h
    · cases h
      exact .refl
    · rename_i hne
      obtain ⟨r, hr, h⟩ := bind_ok h
      have huser : g.parent.user sl cellResId = invalidRnti := by
        by_contra hinvalid
        exact hother ⟨hinvalid, hne⟩
      cases r with
      | none =>
        cases h
        exact .refl
      | some g₁ =>
        cases h
        exact allocate_ok hr huser g' rfl
  · cases h

variable {done : Bool}

theorem releaseResource_ok (h : g.releaseResource cellCfg rnti sl usage cellResId = .ok (g', done)) :
    Advances cellCfg rnti sl g g' := by
  simp only [releaseResource] at h
  split at h
  · cases h
  split at h
  · cases h
    exact .refl
  · rename_i huser
    obtain ⟨g₁, hg₁, h⟩ := bind_ok h
    cases h
    exact release_ok hg₁ (not_not.mp huser)

theorem findHeld_ok {resIdList : List PucchResId} {rPucch nofLeft found : Nat}
    (h : g.findHeld cellCfg rnti sl resIdList rPucch nofLeft = .ok (some (found, cellResId))) :
    g.parent.user sl cellResId = rnti := by
  induction nofLeft generalizing resIdList rPucch with
  | zero =>
    rw [findHeld] at h
    cases h
  | succ nofLeft ih =>
    cases resIdList with
    | nil =>
      rw [findHeld] at h
      cases h
    | cons resId rest =>
      simp only [findHeld] at h
      split at h
      · cases h
      split at h
      · rename_i huser
        cases h
        exact huser
      · exact ih h

theorem allocateFirst_ok {resIdList : List PucchResId} {rPucch nofLeft : Nat} {found : Nat × Nat}
    (h : g.allocateFirst cellCfg rnti sl usage resIdList rPucch nofLeft = .ok (some (g', found))) :
    Advances cellCfg rnti sl g g' := by
  induction nofLeft generalizing resIdList rPucch with
  | zero =>
    rw [allocateFirst] at h
    cases h
  | succ nofLeft ih =>
    cases resIdList with
    | nil =>
      rw [allocateFirst] at h
      cases h
    | cons resId rest =>
      simp only [allocateFirst] at h
      split at h
      · cases h
      split at h
      · rename_i huser
        obtain ⟨r, hr, h⟩ := bind_ok h
        cases r with
        | none => exact ih h
        | some g₁ =>
          cases h
          exact allocate_ok hr huser g' rfl
      · exact ih h

theorem harqAllocRecord_ok {found : Option (UeReservationGuard × Nat × Nat)}
    {res : Option PucchHarqResourceAllocRecord} (h : g.harqAllocRecord ueCfg found = .ok (g', res)) :
    g' = g ∨ ∃ r, found = some (g', r) := by
  cases found with
  | none =>
    cases h
    exact .inl rfl
  | some found =>
    simp only [harqAllocRecord] at h
    split at h
    · cases h
      exact .inr ⟨_, rfl⟩
    · cases h

variable {resSetIdx : PucchResSetIdx}

theorem reserveNextHarqResAvailable_ok {res : Option PucchHarqResourceAllocRecord}
    (h : g.reserveNextHarqResAvailable cellCfg ueCfg rnti sl resSetIdx = .ok (g', res)) :
    Advances cellCfg rnti sl g g' := by
  simp only [reserveNextHarqResAvailable] at h
  split at h
  · cases h
  split at h
  · cases h
  obtain ⟨held, hheld, h⟩ := bind_ok h
  cases held with
  | some held =>
    -- A resource that the UE holds already is used as it is.
    rcases harqAllocRecord_ok h with rfl | ⟨r, hr⟩
    · exact .refl
    · cases hr
      exact .refl
  | none =>
    obtain ⟨found, hfound, h⟩ := bind_ok h
    rcases harqAllocRecord_ok h with rfl | ⟨r, rfl⟩
    · exact .refl
    · exact allocateFirst_ok hfound

theorem reserveHarqResourceByResIndicator_ok {dPri : Nat}
    (h : g.reserveHarqResourceByResIndicator cellCfg ueCfg rnti sl dPri resSetIdx = .ok (g', res)) :
    Advances cellCfg rnti sl g g' := by
  simp only [reserveHarqResourceByResIndicator] at h
  split at h
  · cases h
  split at h
  · cases h
    exact .refl
  split at h
  · cases h
    exact .refl
  · exact reserveResource_ok h

theorem releaseHarqResource_ok
    (h : g.releaseHarqResource cellCfg ueCfg rnti sl resSetIdx = .ok (g', done)) :
    Advances cellCfg rnti sl g g' := by
  simp only [releaseHarqResource] at h
  split at h
  · cases h
  split at h
  · cases h
  obtain ⟨held, hheld, h⟩ := bind_ok h
  cases held with
  | none =>
    cases h
    exact .refl
  | some held =>
    obtain ⟨g₁, hg₁, h⟩ := bind_ok h
    cases h
    exact release_ok hg₁ (findHeld_ok hheld)

theorem exists_of_fst {α β : Type} {r : Except PucchFault (α × β)} {a : α} (h : Prod.fst <$> r = .ok a) :
    ∃ b, r = .ok (a, b) := by
  cases r with
  | error e => cases h
  | ok p =>
    cases h
    exact ⟨p.2, rfl⟩

theorem call_ok {c : Call} (h : g.call cellCfg ueCfg rnti sl c = .ok g') : Advances cellCfg rnti sl g g' := by
  cases c <;> obtain ⟨_, h⟩ := exists_of_fst h
  case reserveHarqNextAvailable => exact reserveNextHarqResAvailable_ok h
  case reserveHarqByResIndicator => exact reserveHarqResourceByResIndicator_ok h
  case releaseHarq => exact releaseHarqResource_ok h
  case reserveSr | reserveCsi =>
    simp only [reserveSrResource, reserveCsiResource] at h
    split at h
    · cases h
    obtain ⟨cellResId, _, h⟩ := bind_ok h
    exact reserveResource_ok h
  case releaseSr | releaseCsi =>
    simp only [releaseSrResource, releaseCsiResource] at h
    split at h
    · cases h
    obtain ⟨cellResId, _, h⟩ := bind_ok h
    exact releaseResource_ok h

/-- The guard against the manager it was created on: the journal tells the resources of the slot, and it
holds only moves that were enabled. -/
structure Traces (cellCfg : PucchCellConfiguration) (rnti : Nat) (sl : SlotPoint) (m : PucchResourceManager)
    (g : UeReservationGuard) : Prop where
  opened : g.committed = false
  inWindow : g.journal ≠ [] → g.InWindow sl
  cellResId_lt : ∀ move ∈ g.journal, move.cellResId < cellCfg.dedPucchResources.length
  records : g.reservations = recordOf g.journal
  slots : ∀ pos, pos ≠ ringPos sl → g.parent.slotsCtx pos = m.slotsCtx pos ∧
    g.parent.collisionManager.slotsCtx pos = m.collisionManager.slotsCtx pos
  common : ∀ i < nofCommonRes, g.parent.collisionManager.slotsCtx (ringPos sl) i =
    m.collisionManager.slotsCtx (ringPos sl) i
  untouched : ∀ cellResId, latestOf g.journal cellResId = none → m.SameUse g.parent sl cellResId
  touched : ∀ cellResId move, latestOf g.journal cellResId = some move →
    g.parent.user sl cellResId = (if move.isReservation then rnti else invalidRnti) ∧
      g.parent.inUse sl cellResId = move.isReservation
  own : ∀ move ∈ g.journal, m.user sl move.cellResId = invalidRnti ∨ m.user sl move.cellResId = rnti
  fresh : ∀ move ∈ g.journal, (∀ usage, .released usage move.cellResId ∉ g.journal) → m.Free sl move.cellResId

namespace Traces
variable {m : PucchResourceManager}

theorem create (h : create rnti sl m = .ok g) : Traces cellCfg rnti sl m g := by
  rw [UeReservationGuard.create] at h
  split at h
  · cases h
  split at h
  · cases h
  cases h
  exact {
    opened := rfl
    inWindow := fun h => absurd rfl h
    cellResId_lt := nofun
    records := rfl
    slots := fun _ _ => ⟨rfl, rfl⟩
    common := fun _ _ => rfl
    untouched := fun _ _ => ⟨rfl, rfl⟩
    touched := nofun
    own := nofun
    fresh := nofun }

variable {move : PucchMove}

section
variable (h : Traces cellCfg rnti sl m g)
include h

/-- The user of a resource before the guard, from its user before a move. -/
theorem user_of_enabled (hmove : Enabled cellCfg rnti sl g move) :
    m.user sl move.cellResId = invalidRnti ∨ m.user sl move.cellResId = rnti := by
  cases hlatest : latestOf g.journal move.cellResId with
  | some earlier =>
    obtain ⟨hmem, hid⟩ := mem_of_latestOf hlatest
    rw [← hid]
    exact h.own earlier hmem
  | none =>
    rw [← (h.untouched _ hlatest).1]
    cases hkind : move.isReservation with
    | true => exact .inl (hmove.reserved hkind).1
    | false => exact .inr (hmove.released hkind)

/-- A resource that is reserved and was never released was free before the guard. -/
theorem free_of_enabled (hrnti : rnti ≠ invalidRnti)
    (hmove : Enabled cellCfg rnti sl g move) (hkind : move.isReservation = true)
    (hkept : ∀ usage, .released usage move.cellResId ∉ g.journal) : m.Free sl move.cellResId := by
  have hfree := hmove.reserved hkind
  cases hlatest : latestOf g.journal move.cellResId with
  | none =>
    have hsame := h.untouched _ hlatest
    exact ⟨hsame.1.symm.trans hfree.1, hsame.2.symm.trans hfree.2⟩
  | some earlier =>
    obtain ⟨hmem, hid⟩ := mem_of_latestOf hlatest
    cases earlier with
    | reserved usage cellResId =>
      have huser := (h.touched _ _ hlatest).1.symm.trans hfree.1
      exact absurd huser hrnti
    | released usage cellResId =>
      have hid' : cellResId = move.cellResId := hid
      subst hid'
      exact absurd hmem (hkept usage)

theorem after (hrnti : rnti ≠ invalidRnti)
    (hmove : Enabled cellCfg rnti sl g move) : Traces cellCfg rnti sl m (g.after rnti sl move) where
  opened := h.opened
  inWindow := fun _ => hmove.inWindow
  cellResId_lt := by
    intro move' hmem
    rcases List.mem_cons.mp hmem with rfl | hmem
    · exact hmove.cellResId_lt
    · exact h.cellResId_lt move' hmem
  records := by
    rw [UeReservationGuard.after, recordOf_cons, h.records]
  slots := by
    intro pos hpos
    obtain ⟨husers, hbits⟩ := h.slots pos hpos
    refine ⟨(slotsCtx_write_of_ne hpos _ _).trans husers, ?_⟩
    funext i
    rw [← hbits]
    exact (slotsCtx_write _ _ _).trans (if_neg fun h => hpos h.1)
  common := by
    intro i hi
    rw [← h.common i hi]
    exact (slotsCtx_write _ _ _).trans (if_neg fun h => by omega)
  untouched := by
    intro cellResId hlatest
    rw [UeReservationGuard.after, latestOf_cons] at hlatest
    split at hlatest
    · cases hlatest
    · rename_i hne
      have hsame := h.untouched cellResId hlatest
      refine ⟨Eq.trans ?_ hsame.1, Eq.trans ?_ hsame.2⟩
      · exact (user_write _ _ _).trans (if_neg (Ne.symm hne))
      · exact (inUse_write _ _ _).trans (if_neg (Ne.symm hne))
  touched := by
    intro cellResId latest hlatest
    rw [UeReservationGuard.after, latestOf_cons] at hlatest
    split at hlatest
    · rename_i heq
      cases hlatest
      subst heq
      exact ⟨(user_write _ _ _).trans (if_pos rfl),
        (inUse_write _ _ _).trans (if_pos rfl)⟩
    · rename_i hne
      have hstate := h.touched cellResId latest hlatest
      refine ⟨Eq.trans ?_ hstate.1, Eq.trans ?_ hstate.2⟩
      · exact (user_write _ _ _).trans (if_neg (Ne.symm hne))
      · exact (inUse_write _ _ _).trans (if_neg (Ne.symm hne))
  own := by
    intro move' hmem
    rcases List.mem_cons.mp hmem with rfl | hmem
    · exact h.user_of_enabled hmove
    · exact h.own move' hmem
  fresh := by
    intro move' hmem hkept
    have hkept' : ∀ usage, .released usage move'.cellResId ∉ g.journal :=
      fun usage hreleased => hkept usage (List.mem_cons_of_mem _ hreleased)
    rcases List.mem_cons.mp hmem with rfl | hmem
    · cases hkind : move'.isReservation with
      | true => exact h.free_of_enabled hrnti hmove hkind hkept'
      | false =>
        cases move' with
        | reserved => cases hkind
        | released usage cellResId => exact absurd List.mem_cons_self (hkept usage)
    · exact h.fresh move' hmem hkept'

theorem advance (hrnti : rnti ≠ invalidRnti)
    (hg : Advances cellCfg rnti sl g g') : Traces cellCfg rnti sl m g' := by
  rcases hg with rfl | ⟨move, hmove, rfl⟩
  · exact h
  · exact h.after hrnti hmove

end

theorem run {calls : List Call} (hrun : run cellCfg ueCfg rnti sl m calls = .ok g) :
    Traces cellCfg rnti sl m g ∧ rnti ≠ invalidRnti := by
  obtain ⟨g₀, hcreate, hrun⟩ := bind_ok hrun
  have hrnti : rnti ≠ invalidRnti := by
    rw [UeReservationGuard.create] at hcreate
    split at hcreate
    · cases hcreate
    split at hcreate
    · cases hcreate
    · assumption
  refine ⟨?_, hrnti⟩
  exact foldlM_ok (I := fun _ g => Traces cellCfg rnti sl m g) hrun (.create hcreate)
    fun g _ c g' h hcall => h.advance hrnti (call_ok hcall)

end Traces

/-- The reservations of some usages are cancelled: their resources are free, and nothing else changed. -/
structure CancelsUsages (sl : SlotPoint) (usages : List PucchUsage) (g g' : UeReservationGuard) : Prop where
  reservations_eq : g'.reservations = g.reservations
  lastSlInd_eq : g'.parent.collisionManager.lastSlInd = g.parent.collisionManager.lastSlInd
  slots : ∀ pos, pos ≠ ringPos sl → g'.parent.slotsCtx pos = g.parent.slotsCtx pos ∧
    g'.parent.collisionManager.slotsCtx pos = g.parent.collisionManager.slotsCtx pos
  common : ∀ i < nofCommonRes, g'.parent.collisionManager.slotsCtx (ringPos sl) i =
    g.parent.collisionManager.slotsCtx (ringPos sl) i
  freed : ∀ usage ∈ usages, ∀ cellResId, g.reservations usage = some cellResId → g'.parent.Free sl cellResId
  kept : ∀ cellResId, (∀ usage ∈ usages, g.reservations usage ≠ some cellResId) →
    g.parent.SameUse g'.parent sl cellResId

theorem cancels_write {usage : PucchUsage} {cellResId : Nat} (h : g.reservations usage = some cellResId) :
    CancelsUsages sl [usage] g { g with parent := g.parent.write sl cellResId invalidRnti false } where
  reservations_eq := rfl
  lastSlInd_eq := rfl
  slots := by
    intro pos hpos
    refine ⟨slotsCtx_write_of_ne hpos _ _, ?_⟩
    funext i
    exact (slotsCtx_write _ _ _).trans (if_neg fun h => hpos h.1)
  common := fun i hi => (slotsCtx_write _ _ _).trans (if_neg fun h => by omega)
  freed := by
    intro usage' husage other hother
    obtain rfl := List.mem_singleton.mp husage
    cases h.symm.trans hother
    exact ⟨(user_write _ _ _).trans (if_pos rfl),
      (inUse_write _ _ _).trans (if_pos rfl)⟩
  kept := by
    intro other hother
    have hne : other ≠ cellResId := by
      rintro rfl
      exact hother usage List.mem_cons_self h
    exact ⟨(user_write _ _ _).trans (if_neg hne),
      (inUse_write _ _ _).trans (if_neg hne)⟩

namespace CancelsUsages
variable {usages : List PucchUsage} {usage : PucchUsage} {g₁ : UeReservationGuard}

theorem refl (h : ∀ usage ∈ usages, g.reservations usage = none) : CancelsUsages sl usages g g where
  reservations_eq := rfl
  lastSlInd_eq := rfl
  slots := fun _ _ => ⟨rfl, rfl⟩
  common := fun _ _ => rfl
  freed := by
    intro usage husage cellResId hres
    rw [h usage husage] at hres
    cases hres
  kept := fun _ _ => ⟨rfl, rfl⟩

theorem cons (h : CancelsUsages sl [usage] g g₁) (h' : CancelsUsages sl usages g₁ g') :
    CancelsUsages sl (usage :: usages) g g' where
  reservations_eq := h'.reservations_eq.trans h.reservations_eq
  lastSlInd_eq := h'.lastSlInd_eq.trans h.lastSlInd_eq
  slots := fun pos hpos =>
    ⟨(h'.slots pos hpos).1.trans (h.slots pos hpos).1, (h'.slots pos hpos).2.trans (h.slots pos hpos).2⟩
  common := fun i hi => (h'.common i hi).trans (h.common i hi)
  freed := by
    intro usage' husage cellResId hres
    by_cases hlater : ∃ usage'' ∈ usages, g.reservations usage'' = some cellResId
    · obtain ⟨usage'', hmem, hres'⟩ := hlater
      rw [← h.reservations_eq] at hres'
      exact h'.freed usage'' hmem cellResId hres'
    · simp only [not_exists, not_and] at hlater
      rcases List.mem_cons.mp husage with rfl | hmem
      · have hfree := h.freed usage' List.mem_cons_self cellResId hres
        rw [← h.reservations_eq] at hlater
        have hsame := h'.kept cellResId hlater
        exact ⟨hsame.1.trans hfree.1, hsame.2.trans hfree.2⟩
      · exact absurd hres (hlater usage' hmem)
  kept := by
    intro cellResId hres
    rw [List.forall_mem_cons] at hres
    have hsame := h.kept cellResId (List.forall_mem_singleton.mpr hres.1)
    have hsame' := h'.kept cellResId (by rw [h.reservations_eq]; exact hres.2)
    exact ⟨hsame'.1.trans hsame.1, hsame'.2.trans hsame.2⟩

end CancelsUsages

/-- The resources on record are resources of the cell, and the slot is within the ring. -/
def RecordsInRange (cellCfg : PucchCellConfiguration) (sl : SlotPoint) (g : UeReservationGuard) : Prop :=
  ∀ usage cellResId, g.reservations usage = some cellResId →
    cellResId < cellCfg.dedPucchResources.length ∧ g.InWindow sl

theorem rollbackUsage_cancels (hrecords : RecordsInRange cellCfg sl g) (usage : PucchUsage) :
    ∃ g', g.rollbackUsage cellCfg sl usage = .ok g' ∧ CancelsUsages sl [usage] g g' := by
  cases hres : g.reservations usage with
  | none =>
    refine ⟨g, ?_, .refl (List.forall_mem_singleton.mpr hres)⟩
    rw [rollbackUsage, hres]
  | some cellResId =>
    obtain ⟨hlt, hwindow⟩ := hrecords usage cellResId hres
    refine ⟨_, ?_, cancels_write hres⟩
    rw [rollbackUsage, hres]
    simp only
    rw [if_neg (Nat.not_le.mpr hlt), freeDed_of_lt (by rw [cellCfg.nofDedicated]; exact hlt) hwindow]
    rfl

theorem rollbackUsages_cancel (usages : List PucchUsage) (hrecords : RecordsInRange cellCfg sl g) :
    ∃ g', usages.foldlM (rollbackUsage cellCfg sl) g = .ok g' ∧ CancelsUsages sl usages g g' := by
  induction usages generalizing g with
  | nil => exact ⟨g, rfl, .refl nofun⟩
  | cons usage usages ih =>
    obtain ⟨g₁, hg₁, hcancel⟩ := rollbackUsage_cancels hrecords usage
    have hrecords₁ : RecordsInRange cellCfg sl g₁ := by
      intro usage' cellResId hres
      rw [hcancel.reservations_eq] at hres
      rw [InWindow, hcancel.lastSlInd_eq]
      exact hrecords usage' cellResId hres
    obtain ⟨g', hg', hcancel'⟩ := ih hrecords₁
    refine ⟨g', ?_, hcancel.cons hcancel'⟩
    rw [List.foldlM_cons, hg₁]
    exact hg'

theorem mem_usages (usage : PucchUsage) : usage ∈ usages := by
  cases usage with
  | harqSet idx => cases idx <;> decide
  | sr => decide
  | csi => decide

namespace Traces
variable {m : PucchResourceManager}

variable (h : Traces cellCfg rnti sl m g)
include h

theorem recordsInRange : RecordsInRange cellCfg sl g := by
  intro usage cellResId hres
  rw [h.records] at hres
  have hmem := mem_of_recordOf hres
  exact ⟨h.cellResId_lt _ hmem, h.inWindow (List.ne_nil_of_mem hmem)⟩

/-- Cancelling reservations leaves the other slots and the resources of other UEs alone. -/
theorem keepsOthers {usages : List PucchUsage}
    (hcancel : CancelsUsages sl usages g g') : m.KeepsOthers sl rnti g'.parent where
  slots := fun pos hpos =>
    ⟨(hcancel.slots pos hpos).1.trans (h.slots pos hpos).1, (hcancel.slots pos hpos).2.trans (h.slots pos hpos).2⟩
  common := fun i hi => (hcancel.common i hi).trans (h.common i hi)
  ues := by
    intro cellResId hne hne'
    have hlatest : ∀ move ∈ g.journal, move.cellResId ≠ cellResId := by
      rintro move hmem rfl
      exact (h.own move hmem).elim hne hne'
    have hsame := h.untouched cellResId (latestOf_eq_none.mpr hlatest)
    have hsame' := hcancel.kept cellResId fun usage _ hres => by
      rw [h.records] at hres
      exact hlatest _ (mem_of_recordOf hres) rfl
    exact ⟨hsame'.1.trans hsame.1, hsame'.2.trans hsame.2⟩

theorem cancelled_of_tracked (htracked : Tracked g.journal)
    (hcancel : CancelsUsages sl usages g g') : m.Cancelled sl g.journal g'.parent := by
  -- A standing reservation is on record, so that it is cancelled.
  have hstanding : ∀ cellResId, Standing g.journal cellResId → g'.parent.Free sl cellResId := by
    intro cellResId hstanding
    obtain ⟨usage, hrecord⟩ := htracked cellResId hstanding
    rw [← h.records] at hrecord
    exact hcancel.freed usage (mem_usages usage) cellResId hrecord
  constructor
  · intro usage cellResId hmem
    cases hlatest : latestOf g.journal cellResId with
    | none => exact absurd rfl (latestOf_eq_none.mp hlatest _ hmem)
    | some move =>
      cases hkind : move.isReservation with
      | true => exact hstanding cellResId ⟨move, hlatest, hkind⟩
      | false =>
        by_cases hres : ∃ usage, g.reservations usage = some cellResId
        · obtain ⟨usage', hres⟩ := hres
          exact hcancel.freed usage' (mem_usages usage') cellResId hres
        · have hsame := hcancel.kept cellResId fun usage' _ hres' => hres ⟨usage', hres'⟩
          have hstate := h.touched cellResId move hlatest
          rw [hkind] at hstate
          exact ⟨hsame.1.trans hstate.1, hsame.2.trans hstate.2⟩
  · intro cellResId hkept
    cases hlatest : latestOf g.journal cellResId with
    | none =>
      have hsame := h.untouched cellResId hlatest
      have hsame' := hcancel.kept cellResId fun usage _ hres => by
        rw [h.records] at hres
        exact latestOf_eq_none.mp hlatest _ (mem_of_recordOf hres) rfl
      exact ⟨hsame'.1.trans hsame.1, hsame'.2.trans hsame.2⟩
    | some move =>
      obtain ⟨hmem, rfl⟩ := mem_of_latestOf hlatest
      have hfree := h.fresh move hmem hkept
      have hkind : move.isReservation = true := by
        cases move with
        | reserved => rfl
        | released usage cellResId => exact absurd hmem (hkept usage)
      have hfree' := hstanding _ ⟨move, hlatest, hkind⟩
      exact ⟨hfree'.1.trans hfree.1.symm, hfree'.2.trans hfree.2.symm⟩

/-- A standing reservation that is not on record outlives the guard. -/
theorem usedBy_of_standing (hcancel : CancelsUsages sl usages g g')
    {cellResId : Nat} (hstanding : Standing g.journal cellResId)
    (hrecord : ∀ usage, recordOf g.journal usage ≠ some cellResId) : g'.parent.UsedBy sl rnti cellResId := by
  obtain ⟨move, hlatest, hkind⟩ := hstanding
  have hstate := h.touched cellResId move hlatest
  rw [hkind] at hstate
  have hsame := hcancel.kept cellResId fun usage _ => by
    rw [h.records]
    exact hrecord usage
  exact ⟨hsame.1.trans hstate.1, hsame.2.trans hstate.2⟩

theorem tracked_of_cancelled (hcancel : CancelsUsages sl usages g g')
    (hcancelled : m.Cancelled sl g.journal g'.parent) : Tracked g.journal := by
  intro cellResId hstanding
  by_contra hrecord
  have hused := h.usedBy_of_standing hcancel hstanding fun usage hres => hrecord ⟨usage, hres⟩
  obtain ⟨move, hlatest, -⟩ := hstanding
  obtain ⟨hmem, rfl⟩ := mem_of_latestOf hlatest
  by_cases hreleased : ∃ usage, .released usage move.cellResId ∈ g.journal
  · obtain ⟨usage, hreleased⟩ := hreleased
    have hfree := hcancelled.freed usage _ hreleased
    exact Bool.noConfusion (hfree.2.symm.trans hused.2)
  · have hkept : ∀ usage, .released usage move.cellResId ∉ g.journal := fun usage hm => hreleased ⟨usage, hm⟩
    have hsame := hcancelled.kept _ hkept
    have hfree := h.fresh move hmem hkept
    exact Bool.noConfusion ((hsame.2.trans hfree.2).symm.trans hused.2)

/-- Without a commit, the destructor cancels the reservations that are on record. -/
theorem rollback : ∃ g', g.rollback cellCfg sl = .ok g' ∧ m.KeepsOthers sl rnti g'.parent ∧
      (m.Cancelled sl g.journal g'.parent ↔ Tracked g.journal) := by
  obtain ⟨g', hg', hcancel⟩ := rollbackUsages_cancel usages h.recordsInRange
  refine ⟨g', ?_, h.keepsOthers hcancel, h.tracked_of_cancelled hcancel, fun ht => h.cancelled_of_tracked ht hcancel⟩
  rw [UeReservationGuard.rollback, h.opened]
  exact hg'

end Traces

namespace Traces
variable {m : PucchResourceManager}

theorem committed_of_cancels (h : Traces cellCfg rnti sl m g) {usages : List PucchUsage}
    (hcancel : CancelsUsages sl usages g g')
    (hsuperseded : ∀ cellResId,
      (∃ usage ∈ usages, g.reservations usage = some cellResId) ↔ Superseded g.journal cellResId) :
    m.Committed sl rnti g.journal g'.parent := by
  have hfreed : ∀ cellResId, Superseded g.journal cellResId → g'.parent.Free sl cellResId := by
    intro cellResId hs
    obtain ⟨usage, hmem, hres⟩ := (hsuperseded cellResId).mpr hs
    exact hcancel.freed usage hmem cellResId hres
  have hsame : ∀ cellResId, ¬Superseded g.journal cellResId → g.parent.SameUse g'.parent sl cellResId :=
    fun cellResId hs =>
      hcancel.kept cellResId fun usage hmem hres => hs ((hsuperseded cellResId).mp ⟨usage, hmem, hres⟩)
  constructor
  · rintro cellResId ⟨move, hlatest, hkind⟩ hs
    have hstate := h.touched cellResId move hlatest
    rw [hkind] at hstate
    exact ⟨(hsame cellResId hs).1.trans hstate.1, (hsame cellResId hs).2.trans hstate.2⟩
  · exact hfreed
  · rintro cellResId ⟨move, hlatest, hkind⟩
    by_cases hs : Superseded g.journal cellResId
    · exact hfreed cellResId hs
    · have hstate := h.touched cellResId move hlatest
      rw [hkind] at hstate
      exact ⟨(hsame cellResId hs).1.trans hstate.1, (hsame cellResId hs).2.trans hstate.2⟩
  · intro cellResId hlatest
    have hs : ¬Superseded g.journal cellResId := fun hs =>
      latestOf_eq_none.mp hlatest _ (mem_of_recordOf hs.1) rfl
    have hbefore := h.untouched cellResId hlatest
    exact ⟨(hsame cellResId hs).1.trans hbefore.1, (hsame cellResId hs).2.trans hbefore.2⟩

theorem commit (h : Traces cellCfg rnti sl m g) :
    ∃ g', g.commit cellCfg sl = .ok g' ∧ m.KeepsOthers sl rnti g'.parent ∧
      m.Committed sl rnti g.journal g'.parent := by
  -- Without a record for both sets nothing is superseded.
  have hkeep (hnone : ∀ cellResId, ¬Superseded g.journal cellResId) :
      m.KeepsOthers sl rnti g.parent ∧ m.Committed sl rnti g.journal g.parent := by
    have hcancel : CancelsUsages sl [] g g := .refl nofun
    refine ⟨h.keepsOthers hcancel, h.committed_of_cancels hcancel fun cellResId => ?_⟩
    simp [hnone cellResId]
  cases hset0 : g.reservations (.harqSet .set0) with
  | none =>
    refine ⟨{ g with committed := true }, ?_, hkeep fun cellResId => ?_⟩
    · simp [UeReservationGuard.commit, h.opened, hset0]
    · rw [h.records] at hset0
      simp [Superseded, hset0]
  | some cellResId =>
    cases hset1 : g.reservations (.harqSet .set1) with
    | none =>
      refine ⟨{ g with committed := true }, ?_, hkeep fun cellResId => ?_⟩
      · simp [UeReservationGuard.commit, h.opened, hset0, hset1]
      · rw [h.records] at hset1
        simp [Superseded, hset1]
    | some other =>
      have hcancel := @cancels_write sl g _ _ hset0
      obtain ⟨hlt, hwindow⟩ := h.recordsInRange _ _ hset0
      have hothers := h.keepsOthers hcancel
      have hcommitted := h.committed_of_cancels hcancel fun cellResId => by
        rw [h.records] at hset1
        simp [Superseded, hset1, h.records]
      refine ⟨{ g with
        parent := g.parent.write sl cellResId invalidRnti false
        reservations := Function.update g.reservations (.harqSet .set0) none
        committed := true }, ?_, hothers, hcommitted⟩
      simp only [UeReservationGuard.commit, h.opened, hset0, hset1, Bool.false_eq_true, if_false]
      rw [freeDed_of_lt (by rw [cellCfg.nofDedicated]; exact hlt) hwindow]
      rfl

end Traces

/-- A guard as a transaction, for every sequence of calls. Destroyed without a commit, it leaves free what was
released, and cancels the reservations if each standing one is on record; a commit keeps the standing ones.
The other slots and UEs are left alone. -/
theorem transaction {m : PucchResourceManager} {calls : List Call}
    (hrun : run cellCfg ueCfg rnti sl m calls = .ok g) :
    (∃ g', g.rollback cellCfg sl = .ok g' ∧ m.KeepsOthers sl rnti g'.parent ∧
      (Tracked g.journal → m.Cancelled sl g.journal g'.parent)) ∧
    ∃ g', g.commit cellCfg sl = .ok g' ∧ m.KeepsOthers sl rnti g'.parent ∧
      m.Committed sl rnti g.journal g'.parent := by
  have htraces := (Traces.run hrun).1
  obtain ⟨g', hg', hothers, hcancelled⟩ := htraces.rollback
  exact ⟨⟨g', hg', hothers, hcancelled.mpr⟩, htraces.commit⟩

/-- A cell whose only dedicated resource is the SR resource of a UE. -/
def srCellCfg : PucchCellConfiguration where
  resources := {
    common := List.replicate nofCommonRes ⟨.format1, 0, ⟨⟨0, ⟨0, 7⟩, ⟨0, 1⟩⟩, some ⟨0, ⟨7, 14⟩, ⟨50, 51⟩⟩⟩⟩
    dedicated := [⟨.format1, 0, ⟨⟨0, ⟨0, 14⟩, ⟨1, 2⟩⟩, none⟩⟩]
    nofCommon := rfl }
  dedPucchResources := [⟨⟨0, 0⟩, 14, 0, .format1⟩]
  nofDedicated := rfl

def srUeCfg : UeCellConfiguration where
  pucchCfg := {
    pucchResSet := fun _ => []
    pucchResList := [⟨⟨0, 0⟩, 14, 0, .format1⟩]
    srResList := [⟨0, 0⟩] }
  pucchCsiResList := []

def slot4Manager : PucchResourceManager := { PucchResourceManager.create with
  collisionManager := ⟨fun _ _ => false, ⟨0, 4⟩⟩
  lastSlInd := ⟨0, 4⟩ }

theorem transaction_srReserved :
    ∃ g, run srCellCfg srUeCfg 0x4601 ⟨0, 5⟩ slot4Manager [.reserveSr] = .ok g ∧
      (∃ g', g.rollback srCellCfg ⟨0, 5⟩ = .ok g' ∧ slot4Manager.Cancelled ⟨0, 5⟩ g.journal g'.parent) ∧
      ∃ g', g.commit srCellCfg ⟨0, 5⟩ = .ok g' ∧ slot4Manager.Committed ⟨0, 5⟩ 0x4601 g.journal g'.parent := by
  obtain ⟨g, hg, hjournal⟩ := exists_ok_of_observed (f := UeReservationGuard.journal)
    (show (run srCellCfg srUeCfg 0x4601 ⟨0, 5⟩ slot4Manager [.reserveSr]).toOption.map _ = some [.reserved .sr 0]
      by decide +kernel)
  obtain ⟨⟨gr, hgr, -, hcancelled⟩, gc, hgc, -, hcommitted⟩ := transaction hg
  have htracked : Tracked g.journal := tracked_of_nodup (by rw [hjournal]; decide)
  exact ⟨g, hg, ⟨gr, hgr, hcancelled htracked⟩, gc, hgc, hcommitted⟩

/-- A resource that the UE held before the guard and that is released through it stays free without a commit. -/
theorem rollback_keeps_release :
    ((run srCellCfg srUeCfg 0x4601 ⟨0, 5⟩ slot4Manager [.reserveSr]).toOption.bind fun first =>
      (first.commit srCellCfg ⟨0, 5⟩).toOption.bind fun held =>
        (run srCellCfg srUeCfg 0x4601 ⟨0, 5⟩ held.parent [.releaseSr]).toOption.bind fun second =>
          (second.rollback srCellCfg ⟨0, 5⟩).toOption.map fun after =>
            ((held.parent.user ⟨0, 5⟩ 0, held.parent.inUse ⟨0, 5⟩ 0),
              (after.parent.user ⟨0, 5⟩ 0, after.parent.inUse ⟨0, 5⟩ 0))) =
      some ((0x4601, true), (invalidRnti, false)) := by
  decide +kernel

end UeReservationGuard

end Srsran.Scheduler

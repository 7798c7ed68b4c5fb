import Srsran.Scheduler.CarrierGrid

/-! The bits of a carrier grid against the symbols and CRBs that were filled and not cleared. -/
namespace Srsran.Scheduler
open Srsran.Adt Checked

def RbInterval.toInterval (interval : RbInterval) : Interval := ⟨interval.start, interval.stop⟩

/-- A carrier grid, and the symbols and CRBs in use. -/
structure TrackedCarrier where
  grid : CarrierGrid
  used : CellSlotResourceGrid

variable {crbList : List Nat}

namespace TrackedCarrier

def usedAfter (s : TrackedCarrier) : GridCall → CellSlotResourceGrid
  | .clear => .clear
  | .fill symbols crbs => s.used.fill ⟨s.grid.carrierCfg.scs, symbols.toInterval, crbs.toInterval⟩
  | .fillList symbols crbList => s.used.fillCrbs s.grid.carrierCfg.scs symbols.toInterval crbList
  | .clearList symbols crbList => s.used.clearCrbs s.grid.carrierCfg.scs symbols.toInterval crbList

def step (s : TrackedCarrier) (call : GridCall) : Option TrackedCarrier :=
  (s.grid.apply call).toOption.map fun grid => { grid, used := s.usedAfter call }

def usedIn (s : TrackedCarrier) (symbols : RbInterval) (crb : Nat) : Bool :=
  (CarrierGrid.symbolList symbols).any fun symbol => s.used s.grid.carrierCfg.scs symbol crb

/-- The bits of the grid are those of the symbols and CRBs of its carrier. -/
structure Mirrors (carrierCfg : ScsSpecificCarrier) (s : TrackedCarrier) : Prop where
  carrierCfg_eq : s.grid.carrierCfg = carrierCfg
  size_eq : s.grid.slotRbs.size = nofOfdmSymPerSlotNormalCp * carrierCfg.carrierBandwidth
  bit_eq : ∀ symbol crb, symbol < nofOfdmSymPerSlotNormalCp → s.grid.containsCrb crb →
    s.grid.slotRbs.bit (crb - carrierCfg.offsetToCarrier + symbol * carrierCfg.carrierBandwidth) =
      s.used carrierCfg.scs symbol crb

end TrackedCarrier

namespace CarrierGrid
variable {grid : CarrierGrid} {symbols : RbInterval} {α : Type}

theorem mem_symbolList {symbol : Nat} : symbol ∈ symbolList symbols ↔ symbols.Holds symbol := by
  have hle := symbols.start_le_stop
  rw [symbolList, List.mem_range'_1, RbInterval.Holds, RbInterval.length]
  omega

theorem rb_add_eq_iff {nofRbs rb rb' symbol symbol' : Nat} (hrb : rb < nofRbs) (hrb' : rb' < nofRbs) :
    rb + symbol * nofRbs = rb' + symbol' * nofRbs ↔ rb = rb' ∧ symbol = symbol' := by
  constructor
  · intro heq
    have hmod := congrArg (· % nofRbs) heq
    have hdiv := congrArg (· / nofRbs) heq
    simp only [Nat.add_mul_mod_self_right, Nat.mod_eq_of_lt hrb, Nat.mod_eq_of_lt hrb'] at hmod
    simp only [Nat.add_mul_div_right _ _ (Nat.zero_lt_of_lt hrb), Nat.div_eq_of_lt hrb, Nat.div_eq_of_lt hrb',
      Nat.zero_add] at hdiv
    exact ⟨hmod, hdiv⟩
  · rintro ⟨rfl, rfl⟩
    rfl

theorem within_iff {nofRbs rb symbol symbol' start stop : Nat} (hrb : rb < nofRbs) (hstop : stop ≤ nofRbs) :
    start + symbol' * nofRbs ≤ rb + symbol * nofRbs ∧ rb + symbol * nofRbs < stop + symbol' * nofRbs ↔
      symbol = symbol' ∧ start ≤ rb ∧ rb < stop := by
  constructor
  · rintro ⟨hle, hlt⟩
    obtain ⟨d, hd⟩ := Nat.exists_eq_add_of_le hle
    have hd' : start + d < nofRbs := by omega
    have heq : rb + symbol * nofRbs = start + d + symbol' * nofRbs := by omega
    obtain ⟨rfl, hsame⟩ := (rb_add_eq_iff hrb hd').mp heq
    exact ⟨hsame, by omega, by omega⟩
  · rintro ⟨rfl, hle, hlt⟩
    omega

theorem inGrid_ok {r : Except BitsetFault α} {a : α} (h : inGrid r = .ok a) : r = .ok a := by
  cases r with
  | ok b =>
    cases h
    rfl
  | error fault => cases h

theorem checkSymbols_ok (h : checkSymbols symbols = .ok ()) : symbols.stop ≤ nofOfdmSymPerSlotNormalCp := by
  rw [checkSymbols] at h
  split at h
  · assumption
  · cases h

variable {crbs : RbInterval}

theorem displaceBy_ok {displaced : RbInterval} {offset : Nat}
    (h : displaceBy crbs offset = .ok displaced) :
    offset ≤ crbs.start ∧ displaced.start = crbs.start - offset ∧ displaced.stop = crbs.stop - offset := by
  rw [displaceBy] at h
  split at h
  · rename_i hle
    cases h
    have hstop := crbs.start_add_length
    refine ⟨hle, rfl, ?_⟩
    simp only [RbInterval.displaceTo, RbInterval.ofLength]
    omega
  · cases h

theorem checkCrbs_ok (h : grid.checkCrbs crbs = .ok ()) : grid.containsCrbs crbs = true := by
  rw [checkCrbs] at h
  split at h
  · assumption
  · cases h

theorem rbOf_ok {i crb rb : Nat} (h : grid.rbOf i crb = .ok rb) :
    grid.containsCrb crb = true ∧ rb = crb - grid.offset + i * grid.nofRbs := by
  rw [rbOf] at h
  split at h
  · cases h
    exact ⟨by assumption, rfl⟩
  · cases h

variable {grid' : CarrierGrid}

theorem fill_ok (h : grid.fill symbols crbs = .ok grid') :
    symbols.stop ≤ nofOfdmSymPerSlotNormalCp ∧ grid.containsCrbs crbs = true ∧ grid'.carrierCfg = grid.carrierCfg ∧
      grid'.slotRbs.size = grid.slotRbs.size ∧
      ∀ i, grid'.slotRbs.bit i = (grid.slotRbs.bit i || (symbolList symbols).any fun symbol =>
        crbs.start - grid.offset + symbol * grid.nofRbs ≤ i &&
          i < crbs.stop - grid.offset + symbol * grid.nofRbs) := by
  obtain ⟨⟨⟩, hcrbs, h⟩ := bind_ok h
  obtain ⟨⟨⟩, hsymbols, h⟩ := bind_ok h
  obtain ⟨displaced, hdisplaced, h⟩ := bind_ok h
  obtain ⟨slotRbs, hfill, h⟩ := bind_ok h
  cases h
  obtain ⟨-, hstart, hstop⟩ := displaceBy_ok hdisplaced
  refine ⟨checkSymbols_ok hsymbols, checkCrbs_ok hcrbs, rfl, ?_⟩
  rw [← hstart, ← hstop]
  refine foldlM_ok (I := fun done (b : SlotRbBitmap) => b.size = grid.slotRbs.size ∧
      ∀ i, b.bit i = (grid.slotRbs.bit i || done.any fun symbol =>
        displaced.start + symbol * grid.nofRbs ≤ i && i < displaced.stop + symbol * grid.nofRbs))
    (inGrid_ok hfill) ⟨rfl, fun i => (Bool.or_false _).symm⟩ ?_
  intro b done symbol b' hmarked hb
  obtain ⟨hsize, hbits⟩ := BoundedBitset.fill_ok hb
  refine ⟨hsize.trans hmarked.1, fun i => ?_⟩
  rw [hbits, hmarked.2, List.any_append, List.any_cons, List.any_nil, Bool.or_false, Bool.or_assoc]

/-- A loop over symbols and CRBs of a list that changes one bit for each. -/
theorem loop_ok {change : SlotRbBitmap → Nat → Except BitsetFault SlotRbBitmap} (combine : Bool → Bool → Bool)
    (hchange : ∀ b b' pos, change b pos = .ok b' → b'.size = b.size ∧ ∀ i, b'.bit i = combine (b.bit i) (i == pos))
    (hfalse : ∀ x, combine x false = x) (hor : ∀ x y z, combine (combine x y) z = combine x (y || z))
    {list : List (Nat × Nat)} {slotRbs : SlotRbBitmap}
    (h : list.foldlM (fun (b : SlotRbBitmap) resource => do
      inGrid (change b (← grid.rbOf resource.1 resource.2))) grid.slotRbs = .ok slotRbs) :
    (∀ resource ∈ list, grid.containsCrb resource.2 = true) ∧ slotRbs.size = grid.slotRbs.size ∧
      ∀ i, slotRbs.bit i = combine (grid.slotRbs.bit i)
        (list.any fun resource => i == resource.2 - grid.offset + resource.1 * grid.nofRbs) := by
  refine foldlM_ok (I := fun done (b : SlotRbBitmap) =>
    (∀ resource ∈ done, grid.containsCrb resource.2 = true) ∧ b.size = grid.slotRbs.size ∧
      ∀ i, b.bit i = combine (grid.slotRbs.bit i)
        (done.any fun resource => i == resource.2 - grid.offset + resource.1 * grid.nofRbs))
    h ⟨nofun, rfl, fun i => (hfalse _).symm⟩ ?_
  intro b done resource b' hdone hb
  obtain ⟨rb, hrb, hb⟩ := bind_ok hb
  obtain ⟨hcontains, rfl⟩ := rbOf_ok hrb
  obtain ⟨hsize, hbits⟩ := hchange _ _ _ (inGrid_ok hb)
  refine ⟨?_, hsize.trans hdone.2.1, fun i => ?_⟩
  · intro r hr
    rcases List.mem_append.mp hr with hr | hr
    · exact hdone.1 r hr
    · rw [List.mem_singleton.mp hr]
      exact hcontains
  · rw [hbits, hdone.2.2, hor, List.any_append, List.any_cons, List.any_nil, Bool.or_false]

theorem fillList_ok (h : grid.fillList symbols crbList = .ok grid') :
    (∀ resource ∈ resources symbols crbList, grid.containsCrb resource.2 = true) ∧
      grid'.carrierCfg = grid.carrierCfg ∧ grid'.slotRbs.size = grid.slotRbs.size ∧
      ∀ i, grid'.slotRbs.bit i = (grid.slotRbs.bit i || (resources symbols crbList).any fun resource =>
        i == resource.2 - grid.offset + resource.1 * grid.nofRbs) := by
  obtain ⟨⟨⟩, -, h⟩ := bind_ok h
  obtain ⟨slotRbs, hloop, h⟩ := bind_ok h
  cases h
  obtain ⟨hcontains, hsize, hbits⟩ := loop_ok or (fun _ _ _ => BoundedBitset.set_ok) Bool.or_false Bool.or_assoc hloop
  exact ⟨hcontains, rfl, hsize, hbits⟩

theorem clearList_ok (h : grid.clearList symbols crbList = .ok grid') :
    (∀ resource ∈ resources symbols crbList, grid.containsCrb resource.2 = true) ∧
      grid'.carrierCfg = grid.carrierCfg ∧ grid'.slotRbs.size = grid.slotRbs.size ∧
      ∀ i, grid'.slotRbs.bit i = (grid.slotRbs.bit i && !(resources symbols crbList).any fun resource =>
        i == resource.2 - grid.offset + resource.1 * grid.nofRbs) := by
  obtain ⟨⟨⟩, -, h⟩ := bind_ok h
  obtain ⟨slotRbs, hloop, h⟩ := bind_ok h
  cases h
  have hor : ∀ x y z : Bool, ((x && !y) && !z) = (x && !(y || z)) := by decide
  obtain ⟨hcontains, hsize, hbits⟩ :=
    loop_ok (fun x y => x && !y) (fun _ _ _ => BoundedBitset.reset_ok) Bool.and_true hor hloop
  exact ⟨hcontains, rfl, hsize, hbits⟩

end CarrierGrid

namespace TrackedCarrier
open CarrierGrid
variable {carrierCfg : ScsSpecificCarrier} {s s' : TrackedCarrier}

theorem containsCrb_iff (grid : CarrierGrid) (crb : Nat) : grid.containsCrb crb = true ↔
    grid.offset ≤ crb ∧ crb - grid.offset < grid.nofRbs := by
  rw [containsCrb, Bool.and_eq_true, decide_eq_true_eq, decide_eq_true_eq]
  omega

variable {grid : CarrierGrid} {crb symbol : Nat}

theorem rb_beq_iff {crb' symbol' : Nat} (hcrb : grid.containsCrb crb = true)
    (hcrb' : grid.containsCrb crb' = true) :
    (crb - grid.offset + symbol * grid.nofRbs == crb' - grid.offset + symbol' * grid.nofRbs) =
      (symbol' == symbol && crb' == crb) := by
  obtain ⟨hle, hlt⟩ := (containsCrb_iff grid crb).mp hcrb
  obtain ⟨hle', hlt'⟩ := (containsCrb_iff grid crb').mp hcrb'
  rw [Bool.eq_iff_iff, beq_iff_eq, rb_add_eq_iff hlt hlt', Bool.and_eq_true, beq_iff_eq, beq_iff_eq]
  omega

theorem toInterval_contains {interval : RbInterval} {x : Nat} :
    interval.toInterval.contains x = true ↔ interval.Holds x := by
  rw [Interval.contains, Bool.and_eq_true, decide_eq_true_eq, decide_eq_true_eq]
  rfl

variable {symbols : RbInterval}

theorem any_resources
    (hall : ∀ resource ∈ resources symbols crbList, grid.containsCrb resource.2 = true)
    (hcrb : grid.containsCrb crb = true) :
    ((resources symbols crbList).any fun resource =>
        crb - grid.offset + symbol * grid.nofRbs == resource.2 - grid.offset + resource.1 * grid.nofRbs) =
      (symbols.toInterval.contains symbol && crbList.contains crb) := by
  rw [Bool.eq_iff_iff, Bool.and_eq_true, toInterval_contains, List.contains_iff_mem, ← mem_symbolList, List.any_eq_true]
  constructor
  · rintro ⟨resource, hmem, hbit⟩
    rw [rb_beq_iff hcrb (hall resource hmem), Bool.and_eq_true, beq_iff_eq, beq_iff_eq] at hbit
    rw [← hbit.1, ← hbit.2]
    exact List.mem_product.mp hmem
  · intro hmem
    exact ⟨(symbol, crb), List.mem_product.mpr hmem, beq_self_eq_true _⟩

theorem any_symbols {crbs : RbInterval} (hcrbs : grid.containsCrbs crbs = true)
    (hcrb : grid.containsCrb crb = true) :
    ((symbolList symbols).any fun symbol' =>
        crbs.start - grid.offset + symbol' * grid.nofRbs ≤ crb - grid.offset + symbol * grid.nofRbs &&
          crb - grid.offset + symbol * grid.nofRbs < crbs.stop - grid.offset + symbol' * grid.nofRbs) =
      (symbols.toInterval.contains symbol && crbs.toInterval.contains crb) := by
  obtain ⟨hle, hlt⟩ := (containsCrb_iff grid crb).mp hcrb
  rw [containsCrbs, Bool.and_eq_true, decide_eq_true_eq, decide_eq_true_eq] at hcrbs
  have hstop : crbs.stop - grid.offset ≤ grid.nofRbs := by omega
  have hwithin (symbol' : Nat) := @within_iff grid.nofRbs _ symbol symbol' (crbs.start - grid.offset) _ hlt hstop
  rw [Bool.eq_iff_iff, Bool.and_eq_true, toInterval_contains, toInterval_contains, ← mem_symbolList, List.any_eq_true]
  simp only [Bool.and_eq_true, decide_eq_true_eq, hwithin]
  rw [RbInterval.Holds]
  constructor
  · rintro ⟨symbol', hmem, rfl, hstart, hstop⟩
    exact ⟨hmem, by omega, by omega⟩
  · rintro ⟨hmem, hstart, hstop⟩
    exact ⟨symbol, hmem, rfl, by omega, by omega⟩

theorem containsCrb_congr {grid' : CarrierGrid} (h : grid'.carrierCfg = grid.carrierCfg) (crb : Nat) :
    grid'.containsCrb crb = grid.containsCrb crb := by
  rw [containsCrb, containsCrb, offset, offset, nofRbs, nofRbs, h]

theorem Mirrors.step (h : Mirrors carrierCfg s) {call : GridCall} (hstep : s.step call = some s') :
    Mirrors carrierCfg s' := by
  obtain ⟨grid', happly, rfl⟩ := Option.map_eq_some_iff.mp hstep
  have happly := toOption_eq_some happly
  obtain ⟨rfl, hsize, hbits⟩ := h
  cases call with
  | clear =>
    cases happly
    exact ⟨rfl, hsize, fun _ _ _ _ => rfl⟩
  | fill symbols crbs =>
    obtain ⟨-, hcrbs, hcfg, hsize', hbits'⟩ := fill_ok happly
    refine ⟨hcfg, hsize'.trans hsize, fun symbol crb hsymbol hcrb => ?_⟩
    rw [containsCrb_congr hcfg] at hcrb
    rw [hbits', hbits symbol crb hsymbol hcrb]
    refine congrArg _ ((any_symbols hcrbs hcrb).trans ?_)
    rw [beq_self_eq_true, Bool.true_and]
  | fillList symbols crbList =>
    obtain ⟨hall, hcfg, hsize', hbits'⟩ := fillList_ok happly
    refine ⟨hcfg, hsize'.trans hsize, fun symbol crb hsymbol hcrb => ?_⟩
    rw [containsCrb_congr hcfg] at hcrb
    rw [hbits', hbits symbol crb hsymbol hcrb]
    refine congrArg _ ((any_resources hall hcrb).trans ?_)
    rw [beq_self_eq_true, Bool.true_and]
  | clearList symbols crbList =>
    obtain ⟨hall, hcfg, hsize', hbits'⟩ := clearList_ok happly
    refine ⟨hcfg, hsize'.trans hsize, fun symbol crb hsymbol hcrb => ?_⟩
    rw [containsCrb_congr hcfg] at hcrb
    rw [hbits', hbits symbol crb hsymbol hcrb]
    refine congrArg (fun marked => _ && !marked) ((any_resources hall hcrb).trans ?_)
    rw [beq_self_eq_true, Bool.true_and]

theorem checkSymbols_of_le (h : symbols.stop ≤ nofOfdmSymPerSlotNormalCp) :
    checkSymbols symbols = .ok () := if_pos h

theorem any_any_comm {α β : Type} (xs : List α) (ys : List β) (p : α → β → Bool) :
    (xs.any fun x => ys.any (p x)) = ys.any fun y => xs.any fun x => p x y := by
  rw [Bool.eq_iff_iff]
  simp only [List.any_eq_true]
  exact ⟨fun ⟨x, hx, y, hy, hp⟩ => ⟨y, hy, x, hx, hp⟩, fun ⟨y, hy, x, hx, hp⟩ => ⟨x, hx, y, hy, hp⟩⟩

variable (h : Mirrors carrierCfg s)
include h

theorem Mirrors.any_eq (start length : Nat)
    (hsymbol : symbol < nofOfdmSymPerSlotNormalCp) (hle : carrierCfg.offsetToCarrier ≤ start)
    (hstop : start + length ≤ carrierCfg.offsetToCarrier + carrierCfg.carrierBandwidth) :
    s.grid.slotRbs.any (start - carrierCfg.offsetToCarrier + symbol * carrierCfg.carrierBandwidth)
        (start + length - carrierCfg.offsetToCarrier + symbol * carrierCfg.carrierBandwidth) =
      .ok ((List.range' start length).any fun crb => s.used carrierCfg.scs symbol crb) := by
  obtain ⟨rfl, hsize, hbits⟩ := h
  have hmul := Nat.mul_le_mul_right s.grid.carrierCfg.carrierBandwidth hsymbol
  rw [Nat.succ_mul] at hmul
  rw [BoundedBitset.any_of_le (by omega) (by omega)]
  congr 1
  rw [Bool.eq_iff_iff, List.any_eq_true, List.any_eq_true]
  simp only [List.mem_range'_1]
  constructor
  · rintro ⟨i, hi, hbit⟩
    have hcrb : i = i - symbol * s.grid.carrierCfg.carrierBandwidth + s.grid.carrierCfg.offsetToCarrier -
        s.grid.carrierCfg.offsetToCarrier + symbol * s.grid.carrierCfg.carrierBandwidth := by omega
    rw [hcrb, hbits symbol _ hsymbol ((containsCrb_iff _ _).mpr ⟨?_, ?_⟩)] at hbit
    · exact ⟨_, by omega, hbit⟩
    · rw [offset]
      omega
    · rw [offset, nofRbs]
      omega
  · rintro ⟨crb, hcrb, hused⟩
    rw [← hbits symbol crb hsymbol ((containsCrb_iff _ _).mpr ⟨?_, ?_⟩)] at hused
    · exact ⟨_, by omega, hused⟩
    · rw [offset]
      omega
    · rw [offset, nofRbs]
      omega

theorem Mirrors.collides_eq {crbs : RbInterval}
    (hsymbols : symbols.stop ≤ nofOfdmSymPerSlotNormalCp) (hcrbs : s.grid.containsCrbs crbs = true) :
    s.grid.collides symbols crbs = .ok ((List.range' crbs.start crbs.length).any (s.usedIn symbols)) := by
  have hlimits := hcrbs
  rw [containsCrbs, Bool.and_eq_true, decide_eq_true_eq, decide_eq_true_eq] at hlimits
  have hcfg := h.carrierCfg_eq
  have hlength := crbs.start_add_length
  rw [collides, checkCrbs, if_pos hcrbs, ok_bind, checkSymbols_of_le hsymbols, ok_bind, displaceBy, if_pos hlimits.1,
    ok_bind]
  have hall : ∀ symbol ∈ symbolList symbols,
      inGrid (s.grid.slotRbs.any ((crbs.displaceTo (crbs.start - s.grid.offset)).start + symbol * s.grid.nofRbs)
        ((crbs.displaceTo (crbs.start - s.grid.offset)).stop + symbol * s.grid.nofRbs)) =
      .ok ((List.range' crbs.start crbs.length).any fun crb => s.used carrierCfg.scs symbol crb) := by
    intro symbol hmem
    have hsymbol := (mem_symbolList.mp hmem).2
    have hany := h.any_eq crbs.start crbs.length (Nat.lt_of_lt_of_le hsymbol hsymbols)
      (hcfg ▸ hlimits.1) (by rw [hlength]; exact hcfg ▸ hlimits.2)
    rw [show (crbs.displaceTo (crbs.start - s.grid.offset)).start = crbs.start - s.grid.offset from rfl,
      show (crbs.displaceTo (crbs.start - s.grid.offset)).stop = crbs.start + crbs.length - s.grid.offset from ?_]
    · rw [offset, nofRbs, hcfg, hany]
      rfl
    · simp only [RbInterval.displaceTo, RbInterval.ofLength]
      omega
  rw [anyM_of_ok hall]
  congr 1
  rw [any_any_comm, ← hcfg]
  rfl

theorem Mirrors.collidesList_eq (hsymbols : symbols.stop ≤ nofOfdmSymPerSlotNormalCp)
    (hcrbs : ∀ crb ∈ crbList, s.grid.containsCrb crb = true) :
    s.grid.collidesList symbols crbList = .ok (crbList.any (s.usedIn symbols)) := by
  obtain ⟨rfl, hsize, hbits⟩ := h
  rw [collidesList, checkSymbols_of_le hsymbols, ok_bind]
  have hall : ∀ resource ∈ resources symbols crbList,
      (do inGrid (s.grid.slotRbs.test (← s.grid.rbOf resource.1 resource.2))) =
        Except.ok (s.used s.grid.carrierCfg.scs resource.1 resource.2) := by
    intro resource hmem
    obtain ⟨hsymbol, hcrb⟩ := List.mem_product.mp hmem
    have hcontains := hcrbs _ hcrb
    have hlt := Nat.lt_of_lt_of_le (mem_symbolList.mp hsymbol).2 hsymbols
    obtain ⟨-, hrb⟩ := (containsCrb_iff _ _).mp hcontains
    have hmul := Nat.mul_le_mul_right s.grid.nofRbs hlt
    rw [Nat.succ_mul] at hmul
    have hpos : resource.2 - s.grid.offset + resource.1 * s.grid.nofRbs < s.grid.slotRbs.size := by
      rw [hsize]
      exact Nat.lt_of_lt_of_le (Nat.add_lt_add_right hrb _) (by rw [Nat.add_comm]; exact hmul)
    rw [rbOf, if_pos hcontains, ok_bind, BoundedBitset.test_of_lt hpos]
    exact congrArg Except.ok (hbits _ _ hlt hcontains)
  rw [anyM_of_ok hall]
  congr 1
  rw [Bool.eq_iff_iff, List.any_eq_true, List.any_eq_true]
  simp only [usedIn, List.any_eq_true]
  constructor
  · rintro ⟨resource, hmem, hused⟩
    obtain ⟨hsymbol, hcrb⟩ := List.mem_product.mp hmem
    exact ⟨_, hcrb, _, hsymbol, hused⟩
  · rintro ⟨crb, hcrb, symbol, hsymbol, hused⟩
    exact ⟨(symbol, crb), List.mem_product.mpr ⟨hsymbol, hcrb⟩, hused⟩

/-- The symbols of a range, folded and cut out at some RB of the carrier. -/
theorem Mirrors.accumulate {sliceOffset sliceLength : Nat}
    (hslice : sliceOffset + sliceLength ≤ carrierCfg.carrierBandwidth)
    (hpos : 0 < carrierCfg.carrierBandwidth) (hsymbols : symbols.stop ≤ nofOfdmSymPerSlotNormalCp) :
    ∃ (selected : SlotRbBitmap) (ret : GridRbBitmap),
      s.grid.slotRbs.slice _ (symbols.start * s.grid.nofRbs) (symbols.stop * s.grid.nofRbs) = .ok selected ∧
      BoundedBitset.foldAndAccumulate _ selected s.grid.nofRbs sliceOffset sliceLength = .ok ret ∧
      ret.size = sliceLength ∧ ∀ i < sliceLength,
        ret.bit i = s.usedIn symbols (sliceOffset + i + carrierCfg.offsetToCarrier) := by
  obtain ⟨rfl, hsize, hbits⟩ := h
  have hle := symbols.start_le_stop
  have hstop := Nat.mul_le_mul_right s.grid.carrierCfg.carrierBandwidth hsymbols
  have hmax := Nat.mul_le_mul_left nofOfdmSymPerSlotNormalCp s.grid.carrierCfg.bandwidth_le
  obtain ⟨selected, hselected, hsize', hbits'⟩ := s.grid.slotRbs.slice_of_le (nofOfdmSymPerSlotNormalCp * maxNofPrbs)
    (Nat.mul_le_mul_right s.grid.carrierCfg.carrierBandwidth hle)
    (Nat.le_trans (Nat.sub_le _ _) (Nat.le_trans hstop hmax)) (hsize ▸ hstop)
  rw [← Nat.sub_mul] at hsize'
  obtain ⟨ret, hret, hlength, hfolded⟩ :=
    BoundedBitset.foldAndAccumulate_of_le maxNofPrbs hpos hsize' hslice
      (Nat.le_trans (Nat.le_add_left _ _) (Nat.le_trans hslice s.grid.carrierCfg.bandwidth_le))
  refine ⟨selected, ret, hselected, hret, hlength, fun i hi => ?_⟩
  have hcrb : s.grid.containsCrb (sliceOffset + i + s.grid.carrierCfg.offsetToCarrier) = true := by
    rw [containsCrb_iff, offset, nofRbs]
    omega
  have hbit : ∀ k < symbols.stop - symbols.start,
      selected.bit (k * s.grid.carrierCfg.carrierBandwidth + sliceOffset + i) =
        s.used s.grid.carrierCfg.scs (symbols.start + k) (sliceOffset + i + s.grid.carrierCfg.offsetToCarrier) := by
    intro k hk
    have hmul := Nat.mul_le_mul_right s.grid.carrierCfg.carrierBandwidth hk
    rw [Nat.succ_mul] at hmul
    rw [hbits', ← Nat.sub_mul, decide_eq_true (by omega), Bool.true_and, ← hbits _ _ (by omega) hcrb,
      Nat.add_sub_cancel, Nat.add_mul]
    congr 1
    omega
  rw [hfolded, decide_eq_true hi, Bool.true_and, Bool.eq_iff_iff, usedIn, List.any_eq_true, List.any_eq_true]
  constructor
  · rintro ⟨k, hk, hused⟩
    rw [List.mem_range] at hk
    rw [hbit k hk] at hused
    exact ⟨symbols.start + k, mem_symbolList.mpr ⟨by omega, by omega⟩, hused⟩
  · rintro ⟨symbol, hsymbol, hused⟩
    obtain ⟨hstart, hend⟩ := mem_symbolList.mp hsymbol
    obtain ⟨k, rfl⟩ := Nat.exists_eq_add_of_le hstart
    refine ⟨k, List.mem_range.mpr (by omega), ?_⟩
    rw [hbit k (by omega)]
    exact hused

end TrackedCarrier
end Srsran.Scheduler

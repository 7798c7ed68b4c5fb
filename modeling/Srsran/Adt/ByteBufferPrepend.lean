import Srsran.Adt.ByteBufferSplice

/-! The variants of `prepend` against what they are for: the bytes that are given, followed by those
of the buffer. -/
namespace Srsran.Adt
open Checked SegmentMemory ControlBlock ByteBuffer

/-- A control block in its memory: the list of its segments with their bytes. The tail is the last of
them, or was destroyed when the buffer was trimmed; so is the segment in the memory block of the
control block one of them, unless it was destroyed. -/
structure WellFormed (mem : SegmentMemory) (cb : ControlBlock) (path : List Nat) (bytes : List UInt8) :
    Prop where
  list : ListOf mem cb.head path bytes
  pktLen : cb.pktLen = bytes.length
  tail : cb.tail = path.getLast? ∨ ∃ t, cb.tail = some t ∧ t < mem.fresh ∧ mem.nodes t = none
  own : cb.segmentInCbMemoryBlock ∈ path ∨ mem.nodes cb.segmentInCbMemoryBlock = none

namespace ByteBuffer

def Holds (mem : SegmentMemory) : ByteBuffer → List Nat → List UInt8 → Prop
  | none, path, bytes => path = [] ∧ bytes = []
  | some cb, path, bytes => WellFormed mem cb path bytes

/-- The bytes that the iteration over the buffer yields, and its length. -/
def Carries (mem : SegmentMemory) : ByteBuffer → List UInt8 → Prop
  | none, bytes => bytes = []
  | some cb, bytes => cb.Carries mem bytes

/-- The buffer has no control block, or a tail segment that was not destroyed. -/
def TailLive (mem : SegmentMemory) : ByteBuffer → Prop
  | none => True
  | some cb => ∃ t node, cb.tail = some t ∧ mem.nodes t = some node

end ByteBuffer

/-- Two buffers. They may share their control block; otherwise they have different segments. -/
structure BufferPair where
  mem : SegmentMemory
  buf : ByteBuffer
  other : ByteBuffer
  bufPath : List Nat
  otherPath : List Nat
  bufBytes : List UInt8
  otherBytes : List UInt8
  bufHolds : buf.Holds mem bufPath bufBytes
  otherHolds : other.Holds mem otherPath otherBytes
  apart : (∃ cb, buf = some cb ∧ other = some cb ∧ cb.unique = false) ∨ ∀ a ∈ bufPath, a ∉ otherPath

/-- The operation succeeds, with a buffer of these bytes. -/
def Yields (bytes : List UInt8) (run : Except ByteBufferFault (SegmentMemory × ByteBuffer)) : Prop :=
  Ensures (fun _ => False) (fun r => r.2.Carries r.1 bytes) run

variable {mem : SegmentMemory} {cb other : ControlBlock} {pools : SegmentPools} {buf : ByteBuffer}
  {bytes otherBytes : List UInt8} {path : List Nat}

theorem WellFormed.carries (h : WellFormed mem cb path bytes) : cb.Carries mem bytes :=
  ⟨path, h.list, h.pktLen⟩

theorem WellFormed.endsAtTail (h : WellFormed mem cb path bytes) (hlive : TailLive mem (some cb)) :
    ∃ front last, path = front ++ [last] ∧ cb.tail = some last := by
  obtain ⟨t, node, htail, hnode⟩ := hlive
  rcases h.tail with hlast | ⟨t', htail', -, hdead⟩
  · obtain ⟨front, rfl⟩ := List.getLast?_eq_some_iff.mp (hlast.symm.trans htail)
    exact ⟨front, t, rfl, htail⟩
  · cases htail.symm.trans htail'
    rw [hnode] at hdead
    cases hdead

variable {run : Except ByteBufferFault (SegmentMemory × ByteBuffer)}

theorem Yields.exists_ok
    (h : Yields bytes run) : ∃ mem buf, run = .ok (mem, buf) ∧ buf.Carries mem bytes := by
  obtain ⟨⟨mem, buf⟩, hrun, hcarries⟩ := Ensures.exists_ok h
  exact ⟨mem, buf, hrun, hcarries⟩

theorem Yields.unique {bytes' : List UInt8}
    (h : Yields bytes run) (h' : Yields bytes' run) : bytes = bytes' := by
  obtain ⟨mem, buf, hrun, hcarries⟩ := h.exists_ok
  obtain ⟨mem', buf', hrun', hcarries'⟩ := h'.exists_ok
  cases hrun.symm.trans hrun'
  cases buf with
  | none => exact Eq.trans hcarries hcarries'.symm
  | some cb => exact ControlBlock.Carries.unique hcarries hcarries'

theorem addHeadSegment_endsAtTail (headroom pool szHint : Nat) :
    (addHeadSegment pools mem headroom pool szHint).2.EndsAtTail
      (addHeadSegment pools mem headroom pool szHint).1 [] := by
  generalize hsegm : ByteBufferSegment.create (pools.headSegmentSize pool mem.fresh szHint) headroom = segm
  have hempty : segm.payload = [] := by rw [← hsegm]; rfl
  have hcons := (show ListOf _ (SegmentNode.next ⟨segm, none⟩) [] [] from listOf_nil _).cons
    (fresh_alloc mem segm).live
  rw [hempty, List.append_nil] at hcons
  rw [addHeadSegment, hsegm]
  exact ⟨[], mem.fresh, hcons, rfl, rfl⟩

theorem read_tail_dead (h : ¬ TailLive mem (some cb)) : ∃ e, mem.read cb.tail = .error e := by
  cases hread : mem.read cb.tail with
  | error e => exact ⟨e, rfl⟩
  | ok node =>
    obtain ⟨t, htail, hlive⟩ := read_eq_ok hread
    exact absurd ⟨t, node, htail, hlive⟩ h

theorem fillTail_dead {szHint : Nat → Nat} {turns : Nat} (h : ¬ TailLive mem (some cb))
    (hbytes : bytes ≠ []) : ∃ e, cb.fillTail pools szHint turns mem bytes = .error e := by
  obtain ⟨e, hread⟩ := read_tail_dead h
  cases bytes with
  | nil => exact absurd rfl hbytes
  | cons byte rest =>
    cases turns with
    | zero => exact ⟨_, rfl⟩
    | succ turns =>
      rw [fillTail, provideTailroom, hread]
      exact ⟨e, rfl⟩

theorem appendSpan_yields (hempty : buf.length = 0) (hbuf : buf.Holds mem path []) :
    Yields bytes (buf.appendSpan pools mem bytes) ↔ bytes = [] ∨ buf.TailLive mem := by
  by_cases hbytes : bytes = []
  · subst hbytes
    refine iff_of_true ?_ (.inl rfl)
    rw [appendSpan, if_pos rfl]
    cases buf with
    | none => rfl
    | some cb => exact hbuf.carries
  · have hfill : ∀ {mem : SegmentMemory} {cb : ControlBlock}, cb.EndsAtTail mem [] →
        Yields bytes (cb.fillTail pools id bytes.length mem bytes >>= fun r => pure (r.1, some r.2)) := by
      intro mem cb hends
      exact (hends.fillTail bytes (fun _ hn _ => hn) (Nat.le_refl _)).bind fun r hr => hr.carries
    rw [appendSpan, if_neg hbytes, or_iff_right hbytes]
    cases buf with
    | none => exact iff_of_true (hfill (addHeadSegment_endsAtTail _ _ _)) trivial
    | some cb =>
      by_cases hlive : TailLive mem (some cb)
      · refine iff_of_true (hfill ?_) hlive
        obtain ⟨front, last, rfl, htail⟩ := WellFormed.endsAtTail hbuf hlive
        exact ⟨front, last, hbuf.list, htail, hbuf.pktLen⟩
      · refine iff_of_false (fun hyields => ?_) hlive
        obtain ⟨e, hfails⟩ := @fillTail_dead mem cb pools bytes id bytes.length hlive hbytes
        obtain ⟨mem', buf', hrun, -⟩ := hyields.exists_ok
        simp only [Option.elim_some, hfails, error_bind, reduceCtorEq] at hrun

theorem appendSegments_endsAtTail {segms : List ByteBufferSegment} (h : cb.EndsAtTail mem bytes) :
    Ensures (fun _ => False) (fun r => r.2.EndsAtTail r.1 (bytes ++ (segms.map (·.payload)).flatten))
      (cb.appendSegments pools mem segms) := by
  induction segms generalizing mem cb bytes with
  | nil => simpa [appendSegments, Ensures] using h
  | cons segm rest ih =>
    rw [appendSegments]
    have hfill := @EndsAtTail.fillTail mem cb pools bytes h (fun _ => segm.length) segm.length
      segm.payload (fun _ hn hle => Nat.lt_of_lt_of_le hn hle) (Nat.le_refl _)
    refine hfill.bind ?_
    rintro ⟨mem', cb'⟩ hends
    simpa [List.append_assoc] using ih hends

theorem appendSegments_dead {segms : List ByteBufferSegment} (h : ¬ TailLive mem (some cb))
    (hbytes : (segms.map (·.payload)).flatten ≠ []) :
    ∃ e, cb.appendSegments pools mem segms = .error e := by
  induction segms with
  | nil => exact absurd rfl hbytes
  | cons segm rest ih =>
    rw [appendSegments]
    by_cases hempty : segm.payload = []
    · obtain ⟨e, hrest⟩ := ih (by simpa [hempty] using hbytes)
      refine ⟨e, ?_⟩
      simp only [hempty, fillTail, ok_bind]
      exact hrest
    · obtain ⟨e, hfails⟩ := @fillTail_dead mem cb pools segm.payload (fun _ => segm.length)
        segm.length h hempty
      refine ⟨e, ?_⟩
      simp only [hfails, error_bind]

theorem appendCopy_yields (hbuf : buf.Holds mem path []) {otherPath : List Nat}
    (hother : WellFormed mem other otherPath otherBytes) (hbytes : otherBytes ≠ []) :
    Yields otherBytes (buf.appendCopy pools mem (some other)) ↔ buf.TailLive mem := by
  have hpktLen : other.pktLen ≠ 0 := by
    rw [hother.pktLen]
    exact fun h => hbytes (List.eq_nil_of_length_eq_zero h)
  -- the loop, from a control block that ends at its tail
  have happend : ∀ {mem : SegmentMemory} {cb : ControlBlock} {otherPath : List Nat},
      cb.EndsAtTail mem [] → ListOf mem other.head otherPath otherBytes →
      Yields otherBytes (mem.walk mem.fresh other.head >>= fun segms =>
        cb.appendSegments pools mem segms >>= fun r => pure (r.1, some r.2)) := by
    intro mem cb otherPath hends hlist
    refine (walk_fresh hlist).bind fun segms hsegms => ?_
    refine (appendSegments_endsAtTail hends).bind fun r hr => ?_
    rw [hsegms] at hr
    exact hr.carries
  simp only [appendCopy, if_neg hpktLen]
  cases buf with
  | none =>
    refine iff_of_true ?_ trivial
    have hne : otherPath ≠ [] := by
      rintro rfl
      exact hbytes hother.list.payloads.symm
    obtain ⟨first, rest, rfl⟩ := List.exists_cons_of_ne_nil hne
    obtain ⟨head, _, hhead, hlive, -⟩ := hother.list.uncons
    rw [orHeadSegment, hhead, read_live hlive, ok_bind, ← hhead]
    exact happend (addHeadSegment_endsAtTail _ _ _) (hother.list.alloc _)
  | some cb =>
    rw [orHeadSegment, ok_bind]
    by_cases hlive : TailLive mem (some cb)
    · refine iff_of_true (happend ?_ hother.list) hlive
      obtain ⟨front, last, rfl, htail⟩ := WellFormed.endsAtTail hbuf hlive
      exact ⟨front, last, hbuf.list, htail, hbuf.pktLen⟩
    · refine iff_of_false (fun hyields => ?_) hlive
      obtain ⟨segms, hwalk, hsegms⟩ := (walk_fresh hother.list).exists_ok
      obtain ⟨e, hfails⟩ := @appendSegments_dead mem cb pools segms hlive (hsegms ▸ hbytes)
      obtain ⟨mem', buf', hrun, -⟩ := hyields.exists_ok
      simp only [hwalk, ok_bind, hfails, error_bind, reduceCtorEq] at hrun

theorem Carries.eq_of_append {cb : ControlBlock} {mem : SegmentMemory} {xs ys : List UInt8}
    (h : cb.Carries mem (xs ++ bytes)) (h' : cb.Carries mem (ys ++ bytes)) : xs = ys :=
  List.append_cancel_right (ControlBlock.Carries.unique h h')

/-- Copies of the segments of the other buffer, pushed to the front one after the other, have room and
spell its bytes. -/
def CopiesWell (pools : SegmentPools) (mem : SegmentMemory) (cb : ControlBlock) (other : ByteBuffer)
    (otherBytes : List UInt8) : Prop :=
  ∃ spans, other.segments mem = .ok spans ∧ spans.reverse.flatten = otherBytes ∧
    CopiesFit pools cb.segmentPool mem.fresh spans

theorem prependCopies_yields {other : ByteBuffer} (h : cb.Carries mem bytes) :
    Yields (otherBytes ++ bytes) (other.segments mem >>= fun spans =>
      prependCopies pools mem cb spans >>= fun r => pure (r.1, some r.2)) ↔
      CopiesWell pools mem cb other otherBytes := by
  constructor
  · intro hyields
    obtain ⟨mem', buf', hrun, hcarries⟩ := hyields.exists_ok
    obtain ⟨spans, hspans, hrun⟩ := bind_ok hrun
    obtain ⟨r, hcopies, hrun⟩ := bind_ok hrun
    cases hrun
    have hfit := copiesFit_of_prependCopies h hcopies
    exact ⟨spans, hspans, Carries.eq_of_append ((h.prependCopies hfit).result hcopies) hcarries, hfit⟩
  · rintro ⟨spans, hspans, hbytes, hfit⟩
    rw [hspans, ok_bind, ← hbytes]
    exact (h.prependCopies hfit).bind fun r hr => hr

/-- The segment that is copied is the head of the other buffer and has room in a new segment, and the
tail of the other buffer was not destroyed. -/
structure SplicesWell (pools : SegmentPools) (mem : SegmentMemory) (cb other : ControlBlock) : Prop where
  head : other.head = some other.segmentInCbMemoryBlock
  tail : TailLive mem (some other)
  fits : ∀ node, mem.nodes other.segmentInCbMemoryBlock = some node →
    node.segm.length ≤ pools.segmentSize cb.segmentPool mem.fresh node.segm.length

theorem appendTo_dead {ptr : Option Nat} {t : Nat} {mem' : SegmentMemory} (hdead : mem.nodes t = none)
    (hrun : mem.appendTo ptr bytes = .ok mem') : mem'.nodes t = none := by
  obtain ⟨node, hread, hrun⟩ := bind_ok hrun
  obtain ⟨a, rfl, hlive⟩ := read_eq_ok hread
  obtain ⟨segm, -, hrun⟩ := bind_ok hrun
  cases hrun
  have hne : t ≠ a := by
    rintro rfl
    rw [hdead] at hlive
    cases hlive
  show (mem.write a _).nodes t = none
  rw [nodes_write hlive, Function.update_of_ne hne, hdead]

variable {otherPath : List Nat}

theorem copyOwnSegment_needs {r : Nat × SegmentMemory}
    (hother : WellFormed mem other otherPath otherBytes)
    (hrun : cb.copyOwnSegment pools mem other = .ok r) :
    TailLive mem (some other) ∧
      ∃ node, mem.nodes other.segmentInCbMemoryBlock = some node ∧
        node.segm.length ≤ pools.segmentSize cb.segmentPool mem.fresh node.segm.length := by
  rw [copyOwnSegment] at hrun
  obtain ⟨node, hread, hrun⟩ := bind_ok hrun
  obtain ⟨_, heq, hlive⟩ := read_eq_ok hread
  cases heq
  obtain ⟨mem₁, happend, hrun⟩ := bind_ok hrun
  have hfit := le_size_of_appendTo happend
  refine ⟨?_, node, hlive, hfit⟩
  rcases hother.tail with hlast | ⟨t, htail, ht, hdead⟩
  · have hne : otherPath ≠ [] := by
      rintro rfl
      rcases hother.own with hmem | hdead
      · cases hmem
      · rw [hdead] at hlive
        cases hlive
    obtain ⟨front, last, rfl⟩ := (List.eq_nil_or_concat' otherPath).resolve_left hne
    obtain ⟨lastNode, hlastLive⟩ := hother.list.leads.live last (by simp)
    exact ⟨last, lastNode, by simpa using hlast, hlastLive⟩
  · -- a destroyed tail stays destroyed
    obtain ⟨mem₂, hset, -⟩ := bind_ok hrun
    obtain ⟨_, htailRead, -⟩ := bind_ok hset
    obtain ⟨_, heq, htailLive⟩ := read_eq_ok htailRead
    cases htail.symm.trans heq
    rw [appendTo_dead ((fresh_alloc mem _).other t (Nat.ne_of_lt ht) |>.trans hdead) happend] at htailLive
    cases htailLive

theorem splice_yields (h : WellFormed mem cb path bytes)
    (hother : WellFormed mem other otherPath otherBytes) (hbytes : otherBytes ≠ [])
    (hdisjoint : ∀ a ∈ path, a ∉ otherPath) :
    Yields (otherBytes ++ bytes) (cb.splice pools mem other >>= fun r => pure (r.1, some r.2)) ↔
      SplicesWell pools mem cb other := by
  have hcopied : TailLive mem (some other) → ∀ {node : SegmentNode},
      mem.nodes other.segmentInCbMemoryBlock = some node →
      node.segm.length ≤ pools.segmentSize cb.segmentPool mem.fresh node.segm.length →
      other.segmentInCbMemoryBlock ∈ otherPath ∧
        Ensures (fun _ => False) (Copied cb other mem bytes otherBytes path otherPath)
          (cb.copyOwnSegment pools mem other) := by
    intro htail node hlive hfit
    obtain ⟨front, last, rfl, hlast⟩ := hother.endsAtTail htail
    have hown : other.segmentInCbMemoryBlock ∈ front ++ [last] := by
      refine hother.own.resolve_right fun hdead => ?_
      rw [hdead] at hlive
      cases hlive
    exact ⟨hown, copyOwnSegment_copied h.list hother.list hdisjoint hlast hown hlive hfit⟩
  constructor
  · intro hyields
    obtain ⟨mem', buf', hrun, hcarries⟩ := hyields.exists_ok
    obtain ⟨r, hsplice, hrun⟩ := bind_ok hrun
    cases hrun
    obtain ⟨⟨a, mem₁⟩, hcopy, -⟩ := bind_ok hsplice
    obtain ⟨htail, node, hlive, hfit⟩ := copyOwnSegment_needs hother hcopy
    refine ⟨?_, htail, fun node' hlive' => ?_⟩
    · by_contra hhead
      obtain ⟨hown, hcopied⟩ := hcopied htail hlive hfit
      have hsame := splice_other hhead (fun hmem => hdisjoint _ hmem hown) hcopied hsplice
      obtain ⟨_, hlist, -⟩ := hcarries
      have := hlist.unique hsame
      exact hbytes (List.append_left_eq_self.mp this)
    · cases hlive.symm.trans hlive'
      exact hfit
  · rintro ⟨hhead, htail, hfits⟩
    have hne : otherPath ≠ [] := by
      rintro rfl
      exact hbytes hother.list.payloads.symm
    obtain ⟨first, rest, rfl⟩ := List.exists_cons_of_ne_nil hne
    obtain ⟨node, _, hfirst, hlive, -⟩ := hother.list.uncons
    cases hhead.symm.trans hfirst
    obtain ⟨-, hcopied⟩ := hcopied htail hlive (hfits node hlive)
    exact (splice_head h.carries hother.pktLen hhead hother.list hcopied).bind fun r hr => hr

theorem ByteBuffer.Holds.length (h : buf.Holds mem path bytes) : buf.length = bytes.length := by
  cases buf with
  | none => rw [h.2]; rfl
  | some cb => exact h.pktLen

theorem ByteBuffer.Holds.length_eq_zero (h : buf.Holds mem path bytes) :
    buf.length = 0 ↔ bytes = [] := by
  rw [h.length, List.length_eq_zero_iff]

theorem ByteBuffer.Holds.carries (h : buf.Holds mem path bytes) : buf.Carries mem bytes := by
  cases buf with
  | none => exact h.2
  | some cb => exact WellFormed.carries h

theorem prependSpan_yields {more : List UInt8} (h : buf.Holds mem path bytes) :
    Yields (more ++ bytes) (buf.prependSpan pools mem more) ↔
      more = [] ∨ buf.length ≠ 0 ∨ buf.TailLive mem := by
  by_cases hempty : buf.length = 0
  · have hbytes := h.length_eq_zero.mp hempty
    subst hbytes
    have hrun : buf.prependSpan pools mem more = buf.appendSpan pools mem more := by
      cases buf with
      | none => rfl
      | some cb => exact if_pos hempty
    rw [hrun, List.append_nil, appendSpan_yields hempty h, or_iff_right (not_not.mpr hempty)]
  · refine iff_of_true ?_ (.inr (.inl hempty))
    have hbytes : bytes ≠ [] := fun hbytes => hempty (h.length_eq_zero.mpr hbytes)
    cases buf with
    | none => exact absurd rfl hempty
    | some cb =>
      rw [prependSpan]
      simp only [if_neg (show cb.pktLen ≠ 0 from hempty)]
      exact (WellFormed.carries h |>.fillHead more hbytes (Nat.le_refl _)).bind fun r hr => hr

theorem prependCopy_yields {other : ByteBuffer} {otherPath : List Nat} (h : buf.Holds mem path bytes)
    (hother : other.Holds mem otherPath otherBytes) :
    Yields (otherBytes ++ bytes) (buf.prependCopy pools mem other) ↔
      otherBytes = [] ∨ (buf.length = 0 ∧ buf.TailLive mem) ∨
        ∃ cb, buf = some cb ∧ cb.pktLen ≠ 0 ∧ CopiesWell pools mem cb other otherBytes := by
  by_cases hempty : other.length = 0
  · have hnil := hother.length_eq_zero.mp hempty
    subst hnil
    refine iff_of_true ?_ (.inl rfl)
    simp only [prependCopy, if_pos hempty]
    exact h.carries
  · have hbytes : otherBytes ≠ [] := fun hbytes => hempty (hother.length_eq_zero.mpr hbytes)
    simp only [prependCopy, if_neg hempty, or_iff_right hbytes]
    cases other with
    | none => exact absurd rfl hempty
    | some otherCb =>
      by_cases hbuf : buf.length = 0
      · have hnil := h.length_eq_zero.mp hbuf
        subst hnil
        rw [List.append_nil]
        cases buf with
        | none =>
          simpa [TailLive, hbuf] using
            @appendCopy_yields mem _ pools none _ _ h _ hother hbytes
        | some cb =>
          have hpktLen : cb.pktLen = 0 := hbuf
          simpa [hpktLen, hbuf] using
            @appendCopy_yields mem _ pools (some cb) _ _ h _ hother hbytes
      · cases buf with
        | none => exact absurd rfl hbuf
        | some cb =>
          have hpktLen : cb.pktLen ≠ 0 := hbuf
          simpa [hpktLen, hbuf] using
            @prependCopies_yields mem cb pools bytes otherBytes (some otherCb) (WellFormed.carries h)

/-- Destroying the segments of one buffer does not touch those of another one. -/
theorem destroyAll_keeps {turns : Nat} {start : Option Nat} {otherStart : Option Nat}
    (h : ListOf mem start path bytes) (hturns : path.length ≤ turns)
    (hother : ListOf mem otherStart otherPath otherBytes) (hdisjoint : ∀ a ∈ path, a ∉ otherPath) :
    Ensures (fun _ => False) (fun mem' => ListOf mem' otherStart otherPath otherBytes)
      (destroyAll turns mem start) := by
  induction path generalizing turns mem start bytes with
  | nil =>
    cases h.leads
    cases turns <;> exact hother
  | cons a path ih =>
    have hnodup := List.nodup_cons.mp h.leads.nodup
    obtain ⟨node, rest, rfl, hlive, -, hrest⟩ := h.uncons
    cases turns with
    | zero => exact absurd hturns (by simp)
    | succ turns =>
      rw [List.forall_mem_cons] at hdisjoint
      rw [destroyAll, read_live hlive, ok_bind]
      exact ih (listOf_destroyNode hrest hnodup.1) (Nat.le_of_succ_le_succ hturns)
        (listOf_destroyNode hother hdisjoint.1) hdisjoint.2

theorem moveInto_carries (h : buf.Holds mem path bytes)
    (hother : WellFormed mem other otherPath otherBytes) (hdisjoint : ∀ a ∈ path, a ∉ otherPath) :
    Ensures (fun _ => False) (fun r => r.2.1.Carries r.1 otherBytes) (buf.moveInto mem (some other)) := by
  cases buf with
  | none => exact hother.carries
  | some cb =>
    have hrelease : Ensures (fun _ => False) (fun mem' => ListOf mem' other.head otherPath otherBytes)
        (cb.release mem) := by
      rw [release]
      split
      · exact destroyAll_keeps h.list (h.list.leads.length_le mem.unused) hother.list hdisjoint
      · exact hother.list
    exact hrelease.bind fun mem' hlist => ⟨otherPath, hlist, hother.pktLen⟩

theorem ensures_map {α β : Type} {P : β → Prop} {f : α → β} {r : Except ByteBufferFault α} :
    Ensures (fun _ => False) P (r >>= fun a => pure (f a)) ↔
      Ensures (fun _ => False) (fun a => P (f a)) r := by
  cases r <;> exact Iff.rfl

/-- What `prepend(byte_buffer&&)` needs of two buffers that are not empty. -/
def MovesWell (pools : SegmentPools) (mem : SegmentMemory) (cb other : ControlBlock)
    (otherBytes : List UInt8) : Prop :=
  if other.unique = false ∨ other.segmentPool ≠ cb.segmentPool then
    CopiesWell pools mem cb (some other) otherBytes
  else SplicesWell pools mem cb other

theorem prependMove_yields (s : BufferPair) :
    Ensures (fun _ => False) (fun r => r.2.1.Carries r.1 (s.otherBytes ++ s.bufBytes))
        (s.buf.prependMove pools s.mem s.other) ↔
      s.otherBytes = [] ∨ s.bufBytes = [] ∨
        ∃ cb other, s.buf = some cb ∧ s.other = some other ∧ MovesWell pools s.mem cb other s.otherBytes := by
  obtain ⟨mem, buf, other, path, otherPath, bytes, otherBytes, h, hother, hapart⟩ := s
  dsimp only at *
  by_cases hempty : other.length = 0
  · have hnil := hother.length_eq_zero.mp hempty
    subst hnil
    refine iff_of_true ?_ (.inl rfl)
    cases other with
    | none => exact h.carries
    | some otherCb =>
      simp only [prependMove, if_pos (show otherCb.pktLen = 0 from hempty)]
      exact h.carries
  · have hbytes : otherBytes ≠ [] := fun hbytes => hempty (hother.length_eq_zero.mpr hbytes)
    rw [or_iff_right hbytes]
    cases other with
    | none => exact absurd rfl hempty
    | some otherCb =>
      simp only [prependMove, if_neg (show otherCb.pktLen ≠ 0 from hempty)]
      by_cases hbuf : buf.length = 0
      · have hnil := h.length_eq_zero.mp hbuf
        subst hnil
        refine iff_of_true ?_ (.inl rfl)
        have hdisjoint : ∀ a ∈ path, a ∉ otherPath := by
          refine hapart.resolve_left ?_
          rintro ⟨cb, rfl, hsame, -⟩
          cases hsame
          exact hempty hbuf
        rw [List.append_nil]
        cases buf with
        | none => exact moveInto_carries h hother hdisjoint
        | some cb =>
          simp only [if_pos (show cb.pktLen = 0 from hbuf)]
          exact moveInto_carries h hother hdisjoint
      · have hnil : bytes ≠ [] := fun hnil => hbuf (h.length_eq_zero.mpr hnil)
        rw [or_iff_right hnil]
        cases buf with
        | none => exact absurd rfl hbuf
        | some cb =>
          have hone : (∃ cb' other, some cb = some cb' ∧ some otherCb = some other ∧
              MovesWell pools mem cb' other otherBytes) ↔ MovesWell pools mem cb otherCb otherBytes := by
            simp
          rw [hone, MovesWell]
          simp only [if_neg (show cb.pktLen ≠ 0 from hbuf)]
          split
          · have hcopy := @prependCopy_yields mem pools _ _ _ _ _ _ h hother
            have hpktLen : cb.pktLen ≠ 0 := hbuf
            simp only [or_iff_right hbytes, hbuf, false_and, false_or, Option.some.injEq,
              exists_eq_left', ne_eq, hpktLen, not_false_eq_true, true_and] at hcopy
            rw [← hcopy]
            exact ensures_map
          · rename_i hunique
            rw [not_or, Bool.not_eq_false] at hunique
            have hdisjoint : ∀ a ∈ path, a ∉ otherPath := by
              refine hapart.resolve_left ?_
              rintro ⟨cb', -, hsame, hshared⟩
              cases hsame
              rw [hunique.1] at hshared
              cases hshared
            rw [← splice_yields h hother hbytes hdisjoint]
            have hspliced := ensures_map (r := cb.splice pools mem otherCb)
              (P := fun r : SegmentMemory × ByteBuffer => r.2.Carries r.1 (otherBytes ++ bytes))
              (f := fun r => (r.1, some r.2))
            exact ensures_map.trans hspliced.symm

/-- When each variant of `prepend` yields the given bytes followed by those of the buffer. A span
needs a buffer that was not trimmed until nothing was left; a buffer that is copied needs segments
that spell its bytes when they are pushed to the front one by one; a buffer whose segments are taken
over needs the one in the memory block of its control block to be the head. -/
theorem prepend_variants (pools : SegmentPools) (s : BufferPair) :
    (∀ bytes, Yields (bytes ++ s.bufBytes) (s.buf.prependSpan pools s.mem bytes) ↔
      bytes = [] ∨ s.buf.length ≠ 0 ∨ s.buf.TailLive s.mem) ∧
    (Yields (s.otherBytes ++ s.bufBytes) (s.buf.prependCopy pools s.mem s.other) ↔
      s.otherBytes = [] ∨ (s.buf.length = 0 ∧ s.buf.TailLive s.mem) ∨
        ∃ cb, s.buf = some cb ∧ cb.pktLen ≠ 0 ∧ CopiesWell pools s.mem cb s.other s.otherBytes) ∧
    (Ensures (fun _ => False) (fun r => r.2.1.Carries r.1 (s.otherBytes ++ s.bufBytes))
        (s.buf.prependMove pools s.mem s.other) ↔
      s.otherBytes = [] ∨ s.bufBytes = [] ∨
        ∃ cb other, s.buf = some cb ∧ s.other = some other ∧
          MovesWell pools s.mem cb other s.otherBytes) :=
  ⟨fun _ => prependSpan_yields s.bufHolds, prependCopy_yields s.bufHolds s.otherHolds,
    prependMove_yields s⟩

def threeSegments : SegmentMemory where
  nodes := fun a =>
    [⟨⟨1960, 16, [9], by decide⟩, none⟩, ⟨⟨2008, 0, [1], by decide⟩, some 2⟩,
      ⟨⟨2008, 0, [2], by decide⟩, none⟩][a]?
  fresh := 3
  unused := fun _ ha => List.getElem?_eq_none ha

/-- A buffer with the byte 9, and one with the bytes 1 and 2 in two segments, of which one shares the
memory block of the control block: the first one if the second was appended to it, the second one if
the first was prepended to it. -/
def twoSegments (own : Nat) (hown : own = 1 ∨ own = 2) : BufferPair where
  mem := threeSegments
  buf := some { head := some 0, tail := some 0, pktLen := 1, segmentInCbMemoryBlock := 0, segmentPool := 0 }
  other := some
    { head := some 1, tail := some 2, pktLen := 2, segmentInCbMemoryBlock := own, segmentPool := 0 }
  bufPath := [0]
  otherPath := [1, 2]
  bufBytes := [9]
  otherBytes := [1, 2]
  bufHolds := ⟨⟨⟨rfl, _, rfl, rfl⟩, rfl⟩, rfl, .inl rfl, .inl (by decide)⟩
  otherHolds := ⟨⟨⟨rfl, _, rfl, rfl, _, rfl, rfl⟩, rfl⟩, rfl, .inl rfl, .inl (by simpa using hown)⟩
  apart := .inr (by decide)

def twoKilobyteBlocks : SegmentPools where
  segmentSize := fun _ _ _ => 2008
  headSegmentSize := fun _ _ _ => 1960
  segmentSize_pos := fun _ _ _ _ => by decide

/-- The variants disagree: a copied buffer comes with its segments in reverse order; a buffer whose
control block is not with its head segment adds to the length and nothing to the bytes; and a buffer
that was trimmed until nothing was left has no tail segment to append to. -/
theorem prepend_variants_disagree :
    let s := twoSegments 1 (.inl rfl)
    let t := twoSegments 2 (.inr rfl)
    let trimmed : ByteBuffer := some { segmentInCbMemoryBlock := 0, segmentPool := 0 }
    Yields [1, 2, 9] (s.buf.prependSpan twoKilobyteBlocks s.mem [1, 2]) ∧
    Yields [2, 1, 9] (s.buf.prependCopy twoKilobyteBlocks s.mem s.other) ∧
    ¬ Yields [1, 2, 9] (s.buf.prependCopy twoKilobyteBlocks s.mem s.other) ∧
    (∃ mem cb path, t.buf.prependMove twoKilobyteBlocks t.mem t.other = .ok (mem, some cb, none) ∧
      cb.pktLen = 3 ∧ ListOf mem cb.head path [9]) ∧
    trimmed.prependSpan twoKilobyteBlocks .empty [1] = .error .nullSegment := by
  intro s t trimmed
  have hspan : Yields [1, 2, 9] (s.buf.prependSpan twoKilobyteBlocks s.mem [1, 2]) :=
    ⟨[0], ⟨⟨rfl, _, rfl, rfl⟩, rfl⟩, rfl⟩
  have hcopy : Yields [2, 1, 9] (s.buf.prependCopy twoKilobyteBlocks s.mem s.other) :=
    ⟨[4, 3, 0], ⟨⟨rfl, _, rfl, rfl, _, rfl, rfl, _, rfl, rfl⟩, rfl⟩, rfl⟩
  refine ⟨hspan, hcopy, fun h => absurd (h.unique hcopy) (by decide), ?_, rfl⟩
  exact ⟨_, _, [0], rfl, rfl, ⟨rfl, _, rfl, rfl⟩, rfl⟩

end Srsran.Adt

import Srsran.Adt.ByteBufferList

/-! The two ways in which `prepend` of a buffer takes over its segments: copies of them one by one,
and linking them in front. -/
namespace Srsran.Adt
open Linked Checked SegmentMemory

variable {mem : SegmentMemory} {cb other : ControlBlock} {pools : SegmentPools}
  {bytes otherBytes seg : List UInt8} {path otherPath : List Nat} {node : SegmentNode}

namespace ControlBlock

def CopiesFit (pools : SegmentPools) (pool : Nat) : Nat → List (List UInt8) → Prop
  | _, [] => True
  | index, seg :: rest =>
    seg.length ≤ pools.segmentSize pool index seg.length ∧ CopiesFit pools pool (index + 1) rest

structure PushedCopy (cb : ControlBlock) (mem : SegmentMemory) (bytes : List UInt8)
    (r : SegmentMemory × ControlBlock) : Prop where
  carries : r.2.Carries r.1 bytes
  fresh : r.1.fresh = mem.fresh + 1
  segmentPool : r.2.segmentPool = cb.segmentPool

theorem Carries.pushCopy (h : cb.Carries mem bytes)
    (hfit : seg.length ≤ pools.segmentSize cb.segmentPool mem.fresh seg.length) :
    Ensures (fun _ => False) (cb.PushedCopy mem (seg ++ bytes)) (cb.pushCopy pools mem seg) := by
  obtain ⟨path, hlist, hlen⟩ := h
  generalize hsegm :
    ByteBufferSegment.create (pools.segmentSize cb.segmentPool mem.fresh seg.length) 0 = segm
  have hroom : seg.length ≤ segm.tailroom := by rwa [← hsegm, tailroom_create]
  obtain ⟨segm', happend, hpayload, -⟩ := append_of_le hroom
  have hempty : segm.payload = [] := by rw [← hsegm]; rfl
  rw [hempty, List.nil_append] at hpayload
  have hlive := (fresh_alloc mem segm).live
  have hlive' : ((mem.alloc segm).2.write mem.fresh ⟨segm', none⟩).nodes mem.fresh = some ⟨segm', none⟩ := by
    rw [nodes_write hlive, Function.update_self]
  have hout : mem.fresh ∉ path := fun hmem => hlist.ne_fresh _ hmem rfl
  have hrest := ((hlist.alloc segm).write hlive hout ⟨segm', none⟩).write hlive' hout ⟨segm', cb.head⟩
  have hnew : (((mem.alloc segm).2.write mem.fresh ⟨segm', none⟩).write mem.fresh
      ⟨segm', cb.head⟩).nodes mem.fresh = some ⟨segm', cb.head⟩ := by
    rw [nodes_write hlive', Function.update_self]
  have hcons := (show ListOf _ (SegmentNode.next ⟨segm', cb.head⟩) path bytes from hrest).cons hnew
  have happendTo : (mem.alloc segm).2.appendTo (some mem.fresh) seg =
      .ok ((mem.alloc segm).2.write mem.fresh ⟨segm', none⟩) := by
    rw [SegmentMemory.appendTo, read_live hlive, ok_bind, happend]
    rfl
  rw [ControlBlock.pushCopy, createSegment, hsegm]
  show Ensures _ _ ((mem.alloc segm).2.appendTo (some mem.fresh) seg >>= _)
  rw [happendTo, ok_bind, setNext_live hlive', ok_bind]
  refine ⟨⟨_, hpayload ▸ hcons, ?_⟩, rfl, rfl⟩
  rw [List.length_append, ← hlen, Nat.add_comm]

theorem le_size_of_appendTo {size : Nat} {mem' : SegmentMemory}
    (h : (mem.alloc (.create size 0)).2.appendTo (some mem.fresh) seg = .ok mem') : seg.length ≤ size := by
  obtain ⟨node, hread, hrest⟩ := bind_ok h
  rw [read_live (fresh_alloc mem _).live] at hread
  cases hread
  obtain ⟨segm, happend, -⟩ := bind_ok hrest
  rw [ByteBufferSegment.append] at happend
  split at happend
  · rename_i hle
    rwa [tailroom_create] at hle
  · cases happend

theorem Carries.prependCopies {spans : List (List UInt8)} (h : cb.Carries mem bytes)
    (hfit : CopiesFit pools cb.segmentPool mem.fresh spans) :
    Ensures (fun _ => False) (fun r => r.2.Carries r.1 (spans.reverse.flatten ++ bytes))
      (prependCopies pools mem cb spans) := by
  induction spans generalizing mem cb bytes with
  | nil => simpa [ControlBlock.prependCopies, Ensures] using h
  | cons seg rest ih =>
    rw [ControlBlock.prependCopies]
    refine (h.pushCopy hfit.1).bind ?_
    rintro ⟨mem', cb'⟩ ⟨hcarries, hfresh, hpool⟩
    have hrest := ih hcarries (by rw [hpool, hfresh]; exact hfit.2)
    simpa [List.append_assoc] using hrest

theorem copiesFit_of_prependCopies {spans : List (List UInt8)} {r : SegmentMemory × ControlBlock}
    (h : cb.Carries mem bytes) (hrun : prependCopies pools mem cb spans = .ok r) :
    CopiesFit pools cb.segmentPool mem.fresh spans := by
  induction spans generalizing mem cb bytes with
  | nil => trivial
  | cons seg rest ih =>
    rw [ControlBlock.prependCopies] at hrun
    obtain ⟨pushed, hpush, hrest⟩ := bind_ok hrun
    obtain ⟨mem', happend, -⟩ := bind_ok hpush
    have hfit := le_size_of_appendTo happend
    obtain ⟨hcarries, hfresh, hpool⟩ := (h.pushCopy hfit).result hpush
    have := ih hcarries hrest
    rw [hpool, hfresh] at this
    exact ⟨hfit, this⟩

/-- The memory after the first part of the shallow copy: both lists in one, and a copy of one of the
segments, with the same link. -/
structure Copied (cb other : ControlBlock) (mem : SegmentMemory) (bytes otherBytes : List UInt8)
    (path otherPath : List Nat) (r : Nat × SegmentMemory) : Prop where
  address : r.1 = mem.fresh
  joined : ListOf r.2 other.head (otherPath ++ path) (otherBytes ++ bytes)
  kept : ListOf r.2 cb.head path bytes
  copy : ∃ own node, r.2.nodes other.segmentInCbMemoryBlock = some own ∧ r.2.nodes r.1 = some node ∧
    node.segm.payload = own.segm.payload ∧ node.next = own.next

section Copy
variable (h : ListOf mem cb.head path bytes) {front : List Nat} {last : Nat}
  (hother : ListOf mem other.head (front ++ [last]) otherBytes)
  (hdisjoint : ∀ a ∈ path, a ∉ front ++ [last]) (htail : other.tail = some last)
  (hown : other.segmentInCbMemoryBlock ∈ front ++ [last])
include h hother hdisjoint htail hown

theorem copyOwnSegment_copied (hlive : mem.nodes other.segmentInCbMemoryBlock = some node)
    (hfit : node.segm.length ≤ pools.segmentSize cb.segmentPool mem.fresh node.segm.length) :
    Ensures (fun _ => False) (Copied cb other mem bytes otherBytes path (front ++ [last]))
      (cb.copyOwnSegment pools mem other) := by
  generalize hsegm :
    ByteBufferSegment.create (pools.segmentSize cb.segmentPool mem.fresh node.segm.length) 0 = segm
  have hroom : node.segm.payload.length ≤ segm.tailroom := by
    rw [← hsegm, tailroom_create]
    exact hfit
  obtain ⟨segm', happend, hpayload, -⟩ := append_of_le hroom
  have hempty : segm.payload = [] := by rw [← hsegm]; rfl
  rw [hempty, List.nil_append] at hpayload
  have hnew := (fresh_alloc mem segm).live
  have happendTo : (mem.alloc segm).2.appendTo (some mem.fresh) node.segm.payload =
      .ok ((mem.alloc segm).2.write mem.fresh ⟨segm', none⟩) := by
    rw [SegmentMemory.appendTo, read_live hnew, ok_bind, happend]
    rfl
  -- the copy, in a memory that is otherwise the same
  generalize hmem₁ : (mem.alloc segm).2.write mem.fresh ⟨segm', none⟩ = mem₁ at happendTo
  have hcopied : Fresh mem mem₁ segm' := by
    rw [← hmem₁]
    refine ⟨?_, fun a ha => ?_, rfl⟩
    · rw [nodes_write hnew, Function.update_self]
    · rw [nodes_write hnew, Function.update_of_ne ha, (fresh_alloc mem segm).other a ha]
  -- the tail of the other list leads to this one
  obtain ⟨lastNode, hlast⟩ := hother.leads.live last (by simp)
  have hlast₁ : mem₁.nodes last = some lastNode :=
    (hcopied.other last (hother.ne_fresh last (by simp))).trans hlast
  have hlastOut : last ∉ path := fun hmem => hdisjoint last hmem (by simp)
  have hjoined := (hcopied.listOf hother).join (hcopied.listOf h) hlast₁ hlastOut
  have hkept := (hcopied.listOf h).write hlast₁ hlastOut { lastNode with next := cb.head }
  have hset : mem₁.setNext other.tail cb.head =
      .ok (mem₁.write last { lastNode with next := cb.head }) := by
    rw [htail, setNext_live hlast₁]
  have hcopy : (mem₁.write last { lastNode with next := cb.head }).nodes mem.fresh = some ⟨segm', none⟩ := by
    rw [nodes_write hlast₁, Function.update_of_ne (hother.ne_fresh last (by simp)).symm, hcopied.live]
  have hownSegm : ((mem₁.write last { lastNode with next := cb.head }).nodes
      other.segmentInCbMemoryBlock).map (·.segm) = some node.segm := by
    rw [nodes_write hlast₁]
    by_cases hsame : other.segmentInCbMemoryBlock = last
    · rw [hsame] at hlive ⊢
      rw [Function.update_self]
      cases hlive.symm.trans hlast
      rfl
    · rw [Function.update_of_ne hsame, hcopied.other _ (hother.ne_fresh _ hown), hlive]
      rfl
  generalize hmem₂ : mem₁.write last { lastNode with next := cb.head } = mem₂ at *
  -- the copy gets the link of the segment
  obtain ⟨own, hownLive, hownSegm⟩ := Option.map_eq_some_iff.mp hownSegm
  have hfreshOut : mem.fresh ∉ front ++ [last] ++ path := by
    intro hmem
    rcases List.mem_append.mp hmem with hmem | hmem
    · exact hother.ne_fresh _ hmem rfl
    · exact h.ne_fresh _ hmem rfl
  have hownNe : other.segmentInCbMemoryBlock ≠ mem.fresh := hother.ne_fresh _ hown
  rw [copyOwnSegment, read_live hlive, ok_bind, createSegment, hsegm]
  show Ensures _ _ ((mem.alloc segm).2.appendTo (some mem.fresh) node.segm.payload >>= _)
  rw [happendTo, ok_bind, hset, ok_bind, read_live hownLive, ok_bind, setNext_live hcopy, ok_bind]
  refine ⟨rfl, hjoined.write hcopy hfreshOut _, hkept.write hcopy
    (fun hmem => h.ne_fresh _ hmem rfl) _, own, ⟨segm', own.next⟩, ?_, ?_, ?_, rfl⟩
  · rw [nodes_write hcopy, Function.update_of_ne hownNe, hownLive]
  · rw [nodes_write hcopy, Function.update_self]
  · rw [hpayload, hownSegm]

end Copy

theorem read_eq_ok {ptr : Option Nat} (h : mem.read ptr = .ok node) :
    ∃ a, ptr = some a ∧ mem.nodes a = some node := by
  cases ptr with
  | none => cases h
  | some a =>
    refine ⟨a, rfl, ?_⟩
    rw [SegmentMemory.read] at h
    split at h
    · cases h
    · rename_i hlive
      rw [hlive, Except.ok.inj h]

theorem listOf_destroyNode {start : Option Nat} {own : Nat} (h : ListOf mem start path bytes)
    (hout : own ∉ path) : ListOf (mem.destroyNode own) start path bytes :=
  h.congr fun _ ha => Function.update_of_ne (ne_of_mem_of_not_mem ha hout) _ _

theorem release_detached {own : Nat} (hlive : mem.nodes own = some node) (hnext : node.next = none) :
    Ensures (fun _ => False)
      (fun mem' => ∀ {start path bytes}, own ∉ path → ListOf mem start path bytes →
        ListOf mem' start path bytes)
      ({ other with head := some own, tail := some own }.release mem) := by
  rw [release]
  split
  · obtain ⟨turns, hturns⟩ := Nat.exists_eq_succ_of_ne_zero (Nat.ne_of_gt (Nat.zero_lt_of_lt (lt_fresh hlive)))
    rw [hturns, SegmentMemory.destroyAll, read_live hlive, ok_bind, hnext]
    cases turns <;> exact fun hout hlist => listOf_destroyNode hlist hout
  · exact fun _ hlist => hlist

/-- If the copied segment was the head of the other buffer, its bytes come in front. -/
theorem splice_head (h : cb.Carries mem bytes) (hlen : other.pktLen = otherBytes.length)
    (hhead : other.head = some other.segmentInCbMemoryBlock)
    (hlist : ListOf mem other.head otherPath otherBytes)
    (hcopied : Ensures (fun _ => False) (Copied cb other mem bytes otherBytes path otherPath)
      (cb.copyOwnSegment pools mem other)) :
    Ensures (fun _ => False) (fun r => r.2.Carries r.1 (otherBytes ++ bytes))
      (cb.splice pools mem other) := by
  obtain ⟨-, -, hcbLen⟩ := h
  rw [splice]
  refine hcopied.bind ?_
  rintro ⟨a, mem₁⟩ ⟨haddress, hjoined, -, own, node, hown, hnode, hpayload, hnext⟩
  cases otherPath with
  | nil => exact absurd (hhead.symm.trans hlist.leads) nofun
  | cons first rest =>
    have hnodup := hjoined.leads.nodup
    obtain ⟨first', restBytes, hfirst, hlive, hbytes, hrest⟩ := hjoined.uncons
    cases hhead.symm.trans hfirst
    cases hlive.symm.trans hown
    rw [← hpayload] at hbytes
    rw [← hnext] at hrest
    have hcons := hrest.cons hnode
    rw [← hbytes] at hcons
    have hout : other.segmentInCbMemoryBlock ∉ a :: (rest ++ path) := by
      rw [List.mem_cons, not_or]
      refine ⟨?_, (List.nodup_cons.mp hnodup).1⟩
      rw [show a = mem.fresh from haddress]
      exact hlist.ne_fresh _ List.mem_cons_self
    simp only [linkCopy, if_pos hhead, ok_bind, setNext_live hown]
    have hdetached : (mem₁.write other.segmentInCbMemoryBlock { own with next := none }).nodes
        other.segmentInCbMemoryBlock = some { own with next := none } := by
      rw [nodes_write hown, Function.update_self]
    refine (release_detached hdetached rfl).bind fun mem' hkept => ?_
    refine ⟨_, hkept hout (hcons.write hown hout _), ?_⟩
    rw [List.length_append, ← hlen, ← hcbLen, Nat.add_comm]

theorem replaceLink_keeps {old new turns : Nat} {ptr start : Option Nat} {mem' : SegmentMemory}
    (h : ListOf mem start path bytes) (hout : old ∉ path)
    (hrun : mem.replaceLink old new turns ptr = .ok mem') : ListOf mem' start path bytes := by
  induction turns generalizing ptr with
  | zero => cases hrun
  | succ turns ih =>
    rw [SegmentMemory.replaceLink] at hrun
    obtain ⟨node, hread, hrest⟩ := bind_ok hrun
    obtain ⟨a, rfl, hlive⟩ := read_eq_ok hread
    split at hrest
    · cases hrest
      exact h
    · split at hrest
      · -- the node that is changed leads to `old`
        rename_i hnext
        have ha : a ∉ path := fun hmem => hout (h.leads.next_mem hmem hlive hnext)
        rw [setNext_live hlive] at hrest
        cases hrest
        exact h.write hlive ha _
      · exact ih hrest

/-- If the copied segment was not the head of the other buffer, this buffer stays as it was. -/
theorem splice_other {r : SegmentMemory × ControlBlock}
    (hhead : other.head ≠ some other.segmentInCbMemoryBlock) (hout : other.segmentInCbMemoryBlock ∉ path)
    (hcopied : Ensures (fun _ => False) (Copied cb other mem bytes otherBytes path otherPath)
      (cb.copyOwnSegment pools mem other))
    (hrun : cb.splice pools mem other = .ok r) : ListOf r.1 r.2.head path bytes := by
  rw [splice] at hrun
  obtain ⟨⟨a, mem₁⟩, hcopy, hrun⟩ := bind_ok hrun
  have hkept := (hcopied.result hcopy).kept
  obtain ⟨⟨mem₂, cb₂⟩, hlink, hrun⟩ := bind_ok hrun
  rw [linkCopy, if_neg hhead] at hlink
  obtain ⟨mem₂', hreplace, hlink⟩ := bind_ok hlink
  cases hlink
  have hreplaced := replaceLink_keeps hkept hout hreplace
  obtain ⟨mem₃, hset, hrun⟩ := bind_ok hrun
  obtain ⟨own, hread, -⟩ := bind_ok hset
  obtain ⟨_, heq, hlive⟩ := read_eq_ok hread
  cases heq
  rw [setNext_live hlive] at hset
  cases hset
  obtain ⟨mem₄, hrelease, hrun⟩ := bind_ok hrun
  cases hrun
  have hdetached : (mem₂.write other.segmentInCbMemoryBlock { own with next := none }).nodes
      other.segmentInCbMemoryBlock = some { own with next := none } := by
    rw [nodes_write hlive, Function.update_self]
  exact (release_detached hdetached rfl).result hrelease hout (hreplaced.write hlive hout _)

end ControlBlock
end Srsran.Adt

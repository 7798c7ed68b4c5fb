import Srsran.Adt.ByteBuffer
import Srsran.Lib.Checked

/-! What the operations on the segment list of a buffer do to the bytes that the list holds. -/
namespace Srsran.Adt
open Linked Checked

variable {mem : SegmentMemory} {cb : ControlBlock} {pools : SegmentPools} {bytes : List UInt8}
  {path rest : List Nat} {a b : Nat} {node : SegmentNode} {start : Option Nat}
variable {mem' : SegmentMemory} {bytes' : List UInt8}

namespace SegmentMemory

theorem lt_fresh (h : mem.nodes a = some node) : a < mem.fresh := by
  by_contra hle
  rw [mem.unused a (Nat.not_lt.mp hle)] at h
  cases h

@[simp] theorem read_none : mem.read none = .error .nullSegment := rfl

theorem read_live (h : mem.nodes a = some node) : mem.read (some a) = .ok node := by
  rw [read, h]

theorem nodes_write (h : mem.nodes a = some node) (node' : SegmentNode) :
    (mem.write a node').nodes = Function.update mem.nodes a (some node') :=
  if_pos (lt_fresh h)

theorem nodes_fresh : mem.nodes mem.fresh = none := mem.unused _ (Nat.le_refl _)

theorem setNext_live (h : mem.nodes a = some node) (next : Option Nat) :
    mem.setNext (some a) next = .ok (mem.write a { node with next }) := by
  rw [setNext, read_live h]
  rfl

variable {segm : ByteBufferSegment}

theorem append_of_le (h : bytes.length ≤ segm.tailroom) :
    ∃ segm', segm.append bytes = .ok segm' ∧ segm'.payload = segm.payload ++ bytes ∧
      segm'.headroom = segm.headroom :=
  ⟨_, dif_pos h, rfl, rfl⟩

theorem prepend_of_le (h : bytes.length ≤ segm.headroom) :
    ∃ segm', segm.prepend bytes = .ok segm' ∧ segm'.payload = bytes ++ segm.payload :=
  ⟨_, dif_pos h, rfl⟩

def payloads (mem : SegmentMemory) (path : List Nat) : List UInt8 :=
  path.flatMap fun a => ((mem.nodes a).map (·.segm.payload)).getD []

@[simp] theorem payloads_nil : mem.payloads [] = [] := rfl

theorem payloads_append : mem.payloads (path ++ rest) = mem.payloads path ++ mem.payloads rest :=
  List.flatMap_append

theorem payloads_cons (h : mem.nodes a = some node) :
    mem.payloads (a :: rest) = node.segm.payload ++ mem.payloads rest := by
  rw [payloads, List.flatMap_cons, h]
  rfl

theorem payloads_singleton (h : mem.nodes a = some node) : mem.payloads [a] = node.segm.payload := by
  rw [payloads_cons h, payloads_nil, List.append_nil]

theorem payloads_congr (h : ∀ a ∈ path, (mem'.nodes a).map (·.segm) = (mem.nodes a).map (·.segm)) :
    mem'.payloads path = mem.payloads path := by
  refine List.flatMap_congr fun a ha => ?_
  have hpayload := congrArg (Option.map (·.payload)) (h a ha)
  rw [Option.map_map, Option.map_map] at hpayload
  exact congrArg (·.getD []) hpayload

structure ListOf (mem : SegmentMemory) (start : Option Nat) (path : List Nat) (bytes : List UInt8) :
    Prop where
  leads : Leads mem.nodes SegmentNode.next start path none
  payloads : mem.payloads path = bytes

section
variable (h : ListOf mem start path bytes)
include h

theorem ListOf.congr (hsame : ∀ a ∈ path, mem'.nodes a = mem.nodes a) : ListOf mem' start path bytes := by
  refine ⟨h.leads.congr fun a ha => by rw [hsame a ha], ?_⟩
  rw [← h.payloads]
  exact payloads_congr fun a ha => by rw [hsame a ha]

theorem ListOf.unique {path' : List Nat} (h' : ListOf mem start path' bytes') : bytes = bytes' := by
  rw [← h.payloads, ← h'.payloads, h.leads.unique h'.leads]

theorem ListOf.ne_fresh : ∀ a ∈ path, a ≠ mem.fresh := by
  intro a ha heq
  obtain ⟨node, hnode⟩ := h.leads.live a ha
  rw [heq, nodes_fresh] at hnode
  cases hnode

end

theorem listOf_nil (mem : SegmentMemory) : ListOf mem none [] [] := ⟨rfl, rfl⟩

theorem ListOf.alloc (h : ListOf mem start path bytes) (segm : ByteBufferSegment) :
    ListOf (mem.alloc segm).2 start path bytes :=
  h.congr fun a ha => Function.update_of_ne (h.ne_fresh a ha) _ _

theorem ListOf.write (h : ListOf mem start path bytes) (hlive : mem.nodes a = some node)
    (hout : a ∉ path) (node' : SegmentNode) : ListOf (mem.write a node') start path bytes := by
  refine h.congr fun b hb => ?_
  rw [nodes_write hlive, Function.update_of_ne (ne_of_mem_of_not_mem hb hout)]

theorem ListOf.cons (h : ListOf mem node.next path bytes) (hlive : mem.nodes a = some node) :
    ListOf mem (some a) (a :: path) (node.segm.payload ++ bytes) :=
  ⟨⟨rfl, node, hlive, h.leads⟩, by rw [payloads_cons hlive, h.payloads]⟩

theorem ListOf.uncons (h : ListOf mem start (a :: path) bytes) :
    ∃ node rest, start = some a ∧ mem.nodes a = some node ∧ bytes = node.segm.payload ++ rest ∧
      ListOf mem node.next path rest := by
  obtain ⟨hstart, node, hnode, hleads⟩ := h.leads
  refine ⟨node, mem.payloads path, hstart, hnode, ?_, hleads, rfl⟩
  rw [← h.payloads, payloads_cons hnode]

variable {last : Nat}

theorem not_mem_of_nodup (h : (path ++ [last]).Nodup) : last ∉ path := by
  rw [List.nodup_append] at h
  exact fun hmem => h.2.2 last hmem last (by simp) rfl

theorem ListOf.join {ptr : Option Nat}
    (h : ListOf mem start (path ++ [last]) bytes) (h' : ListOf mem ptr rest bytes')
    (hlive : mem.nodes last = some node) (hout : last ∉ rest) :
    ListOf (mem.write last { node with next := ptr }) start (path ++ [last] ++ rest) (bytes ++ bytes') := by
  constructor
  · rw [nodes_write hlive]
    exact leads_append.mpr
      ⟨ptr, h.leads.redirect (not_mem_of_nodup h.leads.nodup) rfl, h'.leads.update hout _⟩
  · rw [payloads_append, ← h.payloads, ← h'.payloads]
    refine congrArg₂ (· ++ ·) (payloads_congr fun a _ => ?_) (payloads_congr fun a ha => ?_)
    · rw [nodes_write hlive]
      by_cases hal : a = last
      · rw [hal, Function.update_self, hlive]
        rfl
      · rw [Function.update_of_ne hal]
    · rw [nodes_write hlive, Function.update_of_ne (ne_of_mem_of_not_mem ha hout)]

theorem ListOf.appendLast {more : List UInt8} (h : ListOf mem start (path ++ [last]) bytes)
    (hlive : mem.nodes last = some node) (hsegm : segm.payload = node.segm.payload ++ more) :
    ListOf (mem.write last { node with segm }) start (path ++ [last]) (bytes ++ more) := by
  have hout := not_mem_of_nodup h.leads.nodup
  have hnode : (mem.write last { node with segm }).nodes last = some { node with segm } := by
    rw [nodes_write hlive, Function.update_self]
  constructor
  · refine h.leads.congr fun a _ => ?_
    rw [nodes_write hlive]
    by_cases hal : a = last
    · rw [hal, Function.update_self, hlive]
      rfl
    · rw [Function.update_of_ne hal]
  · have hpath : (mem.write last { node with segm }).payloads path = mem.payloads path :=
      payloads_congr fun a ha => by
        rw [nodes_write hlive, Function.update_of_ne (ne_of_mem_of_not_mem ha hout)]
    rw [← h.payloads, payloads_append, payloads_append, hpath, payloads_singleton hnode,
      payloads_singleton hlive, hsegm, List.append_assoc]

theorem walk_listOf {turns : Nat} (h : ListOf mem start path bytes) (hturns : path.length ≤ turns) :
    Ensures (fun _ => False) (fun segms => (segms.map (·.payload)).flatten = bytes)
      (mem.walk turns start) := by
  induction path generalizing turns start bytes with
  | nil =>
    cases h.leads
    cases turns <;> exact h.payloads
  | cons a path ih =>
    obtain ⟨node, rest, rfl, hnode, rfl, hrest⟩ := h.uncons
    cases turns with
    | zero => exact absurd hturns (by simp)
    | succ turns =>
      rw [walk, read_live hnode, ok_bind]
      refine (ih hrest (Nat.le_of_succ_le_succ hturns)).bind fun segms hsegms => ?_
      exact congrArg (node.segm.payload ++ ·) hsegms

theorem walk_fresh (h : ListOf mem start path bytes) :
    Ensures (fun _ => False) (fun segms => (segms.map (·.payload)).flatten = bytes)
      (mem.walk mem.fresh start) :=
  walk_listOf h (h.leads.length_le mem.unused)

end SegmentMemory

namespace ControlBlock
open SegmentMemory

def EndsAtTail (cb : ControlBlock) (mem : SegmentMemory) (bytes : List UInt8) : Prop :=
  ∃ path last, ListOf mem cb.head (path ++ [last]) bytes ∧ cb.tail = some last ∧ cb.pktLen = bytes.length

def TailHasRoom (cb : ControlBlock) (mem : SegmentMemory) : Prop :=
  ∃ last node, cb.tail = some last ∧ mem.nodes last = some node ∧ 0 < node.segm.tailroom

theorem tailroom_create (size : Nat) : (ByteBufferSegment.create size 0).tailroom = size := by
  simp [ByteBufferSegment.create, ByteBufferSegment.tailroom, ByteBufferSegment.length]

/-- A segment that was just allocated. -/
structure Fresh (mem mem' : SegmentMemory) (segm : ByteBufferSegment) : Prop where
  live : mem'.nodes mem.fresh = some ⟨segm, none⟩
  other : ∀ a, a ≠ mem.fresh → mem'.nodes a = mem.nodes a
  fresh : mem'.fresh = mem.fresh + 1

theorem fresh_alloc (mem : SegmentMemory) (segm : ByteBufferSegment) : Fresh mem (mem.alloc segm).2 segm :=
  ⟨Function.update_self .., fun _ ha => Function.update_of_ne ha .., rfl⟩

theorem Fresh.write {segm : ByteBufferSegment} (h : Fresh mem mem' segm) :
    Fresh mem (mem'.write mem.fresh ⟨segm, none⟩) segm := by
  refine ⟨?_, fun a ha => ?_, h.fresh⟩
  · rw [nodes_write h.live, Function.update_self]
  · rw [nodes_write h.live, Function.update_of_ne ha, h.other a ha]

theorem Fresh.listOf {segm : ByteBufferSegment} (h : Fresh mem mem' segm)
    (hlist : ListOf mem start path bytes) : ListOf mem' start path bytes :=
  hlist.congr fun a ha => h.other a (hlist.ne_fresh a ha)

variable {szHint : Nat}

section
variable (h : cb.EndsAtTail mem bytes)
include h

theorem EndsAtTail.appendSegment (hhint : 0 < szHint) :
    Ensures (fun _ => False) (fun r => r.2.EndsAtTail r.1 bytes ∧ r.2.TailHasRoom r.1)
      (cb.appendSegment pools mem 0 szHint) := by
  obtain ⟨path, last, hlist, htail, hlen⟩ := h
  obtain ⟨lastNode, hlast⟩ := hlist.leads.live last (by simp)
  have hne : last ≠ mem.fresh := hlist.ne_fresh last (by simp)
  have hhead : cb.head.isSome := by
    cases path with
    | nil => rw [hlist.leads.1]; rfl
    | cons first path => rw [hlist.leads.1]; rfl
  rw [ControlBlock.appendSegment, createSegment]
  generalize hsegm : ByteBufferSegment.create (pools.segmentSize cb.segmentPool mem.fresh szHint) 0 = segm
  have hroom : 0 < segm.tailroom := by
    rw [← hsegm, tailroom_create]
    exact pools.segmentSize_pos _ _ _ hhint
  have hempty : segm.payload = [] := by rw [← hsegm]; rfl
  -- the new node, then the link to it
  have hnew := (fresh_alloc mem segm).write
  have hlast' := (hnew.other last hne).trans hlast
  have hset : (mem.alloc segm).2.setNext (some mem.fresh) none =
      .ok ((mem.alloc segm).2.write mem.fresh ⟨segm, none⟩) :=
    setNext_live (fresh_alloc mem segm).live none
  have hsingle := (show ListOf _ (SegmentNode.next ⟨segm, none⟩) [] [] from listOf_nil _).cons hnew.live
  have hjoin := (hnew.listOf hlist).join hsingle hlast' (by simpa using hne)
  rw [hempty, List.append_nil, List.append_nil] at hjoin
  have hrun : cb.pushBack (mem.alloc segm).2 (mem.alloc segm).1 = .ok
      (((mem.alloc segm).2.write mem.fresh ⟨segm, none⟩).write last { lastNode with next := some mem.fresh },
        { cb with tail := some mem.fresh }) := by
    rw [pushBack, show (mem.alloc segm).1 = mem.fresh from rfl, hset, ok_bind, if_pos hhead, htail,
      setNext_live hlast']
    rfl
  show Ensures _ _ (cb.pushBack (mem.alloc segm).2 (mem.alloc segm).1)
  rw [hrun]
  refine ⟨⟨_, _, hjoin, rfl, hlen⟩, mem.fresh, ⟨segm, none⟩, rfl, ?_, hroom⟩
  rw [nodes_write hlast', Function.update_of_ne hne.symm]
  exact hnew.live

theorem EndsAtTail.appendTo {last : Nat} (more : List UInt8)
    (htail : cb.tail = some last) (hlive : mem.nodes last = some node)
    (hroom : more.length ≤ node.segm.tailroom) :
    Ensures (fun _ => False)
      (fun mem' => { cb with pktLen := cb.pktLen + more.length }.EndsAtTail mem' (bytes ++ more))
      (mem.appendTo cb.tail more) := by
  obtain ⟨path, last', hlist, htail', hlen⟩ := h
  cases htail.symm.trans htail'
  obtain ⟨segm, happend, hpayload, -⟩ := append_of_le hroom
  rw [SegmentMemory.appendTo, htail, read_live hlive, ok_bind, happend, ok_bind]
  refine ⟨path, last, hlist.appendLast hlive hpayload, rfl, ?_⟩
  rw [List.length_append, ← hlen]

theorem EndsAtTail.provideTailroom (hhint : 0 < szHint) :
    Ensures (fun _ => False) (fun r => r.2.EndsAtTail r.1 bytes ∧ r.2.TailHasRoom r.1)
      (cb.provideTailroom pools mem szHint) := by
  obtain ⟨path, last, hlist, htail, hlen⟩ := id h
  obtain ⟨node, hlive⟩ := hlist.leads.live last (by simp)
  rw [ControlBlock.provideTailroom, htail, read_live hlive, ok_bind]
  split
  · exact h.appendSegment hhint
  · rename_i hroom
    exact ⟨h, last, node, htail, hlive, Nat.pos_of_ne_zero hroom⟩

theorem EndsAtTail.fillTail {szHint : Nat → Nat} {turns : Nat}
    (more : List UInt8) (hhint : ∀ n, 0 < n → n ≤ more.length → 0 < szHint n)
    (hturns : more.length ≤ turns) :
    Ensures (fun _ => False) (fun r => r.2.EndsAtTail r.1 (bytes ++ more))
      (cb.fillTail pools szHint turns mem more) := by
  induction turns generalizing mem cb bytes more with
  | zero =>
    rw [List.eq_nil_of_length_eq_zero (Nat.le_zero.mp hturns)]
    simpa [ControlBlock.fillTail, Ensures] using h
  | succ turns ih =>
    cases more with
    | nil => simpa [ControlBlock.fillTail, Ensures] using h
    | cons byte rest =>
      rw [List.length_cons] at hturns hhint
      rw [ControlBlock.fillTail]
      refine (h.provideTailroom (hhint _ (Nat.succ_pos _) (Nat.le_refl _))).bind ?_
      rintro ⟨mem', cb'⟩ ⟨hends, last', node', htail', hlive', hroom⟩
      have hread : mem'.read cb'.tail = .ok node' := by rw [htail', read_live hlive']
      dsimp only
      rw [hread, ok_bind]
      generalize hchunk : min node'.segm.tailroom (rest.length + 1) = toWrite
      have hpos : 0 < toWrite := by omega
      have hlength : ((byte :: rest).take toWrite).length = toWrite := by
        rw [List.length_take, List.length_cons]
        omega
      have hstep := hends.appendTo ((byte :: rest).take toWrite) htail' hlive' (by omega)
      rw [hlength] at hstep
      refine hstep.bind fun mem'' hmem'' => ?_
      have hdrop : ((byte :: rest).drop toWrite).length = rest.length + 1 - toWrite := by
        rw [List.length_drop, List.length_cons]
      have hrest := ih hmem'' ((byte :: rest).drop toWrite)
        (fun n hn hle => hhint n hn (by omega)) (by omega)
      rwa [List.append_assoc, List.take_append_drop] at hrest

end

/-- The list from the head, with its bytes. -/
def Carries (cb : ControlBlock) (mem : SegmentMemory) (bytes : List UInt8) : Prop :=
  ∃ path, ListOf mem cb.head path bytes ∧ cb.pktLen = bytes.length

theorem EndsAtTail.carries (h : cb.EndsAtTail mem bytes) : cb.Carries mem bytes := by
  obtain ⟨path, last, hlist, -, hlen⟩ := h
  exact ⟨_, hlist, hlen⟩

theorem Carries.unique (h : cb.Carries mem bytes) (h' : cb.Carries mem bytes') : bytes = bytes' := by
  obtain ⟨_, hlist, -⟩ := h
  obtain ⟨_, hlist', -⟩ := h'
  exact hlist.unique hlist'

def HeadHasRoom (cb : ControlBlock) (mem : SegmentMemory) : Prop :=
  ∃ first node, cb.head = some first ∧ mem.nodes first = some node ∧ 0 < node.segm.headroom

variable (h : cb.Carries mem bytes)
include h

theorem Carries.prependSegment {headroom : Nat} (hhint : 0 < szHint) (hheadroom : 0 < headroom) :
    Ensures (fun _ => False) (fun r => r.2.Carries r.1 bytes ∧ r.2.HeadHasRoom r.1)
      (cb.prependSegment pools mem headroom szHint) := by
  obtain ⟨path, hlist, hlen⟩ := h
  rw [ControlBlock.prependSegment, createSegment]
  generalize hsegm :
    ByteBufferSegment.create (pools.segmentSize cb.segmentPool mem.fresh szHint) headroom = segm
  have hroom : 0 < segm.headroom := by
    have := pools.segmentSize_pos cb.segmentPool mem.fresh szHint hhint
    rw [← hsegm]
    exact Nat.lt_min.mpr ⟨hheadroom, this⟩
  have hempty : segm.payload = [] := by rw [← hsegm]; rfl
  have hlive := (fresh_alloc mem segm).live
  have hnew : ((mem.alloc segm).2.write mem.fresh ⟨segm, cb.head⟩).nodes mem.fresh =
      some ⟨segm, cb.head⟩ := by
    rw [nodes_write hlive, Function.update_self]
  have hrest := (hlist.alloc segm).write hlive (fun hmem => hlist.ne_fresh _ hmem rfl) ⟨segm, cb.head⟩
  have hcons := (show ListOf _ (SegmentNode.next ⟨segm, cb.head⟩) path bytes from hrest).cons hnew
  rw [hempty, List.nil_append] at hcons
  show Ensures _ _ (cb.pushFront (mem.alloc segm).2 mem.fresh)
  rw [pushFront, setNext_live hlive]
  exact ⟨⟨_, hcons, hlen⟩, mem.fresh, _, rfl, hnew, hroom⟩

theorem Carries.provideHeadroom (hbytes : bytes ≠ []) (hhint : 0 < szHint) :
    Ensures (fun _ => False) (fun r => r.2.Carries r.1 bytes ∧ r.2.HeadHasRoom r.1)
      (cb.provideHeadroom pools mem szHint) := by
  obtain ⟨path, hlist, hlen⟩ := id h
  cases path with
  | nil => exact absurd hlist.payloads.symm hbytes
  | cons first path =>
    obtain ⟨node, rest, hhead, hlive, -⟩ := hlist.uncons
    rw [ControlBlock.provideHeadroom, hhead, read_live hlive, ok_bind]
    split
    · exact h.prependSegment hhint hhint
    · rename_i hroom
      exact ⟨h, first, node, hhead, hlive, Nat.pos_of_ne_zero hroom⟩

theorem Carries.prependTo {first : Nat} (more : List UInt8)
    (hhead : cb.head = some first) (hlive : mem.nodes first = some node)
    (hroom : more.length ≤ node.segm.headroom) :
    Ensures (fun _ => False)
      (fun mem' => { cb with pktLen := cb.pktLen + more.length }.Carries mem' (more ++ bytes))
      (mem.prependTo cb.head more) := by
  obtain ⟨path, hlist, hlen⟩ := h
  obtain ⟨segm, hprepend, hpayload⟩ := prepend_of_le hroom
  rw [SegmentMemory.prependTo, hhead, read_live hlive, ok_bind, hprepend, ok_bind]
  cases path with
  | nil => exact absurd (hhead.symm.trans hlist.leads) nofun
  | cons first' path =>
    have hnodup := hlist.leads.nodup
    obtain ⟨node', rest, hhead', hlive', rfl, hrest⟩ := hlist.uncons
    cases hhead.symm.trans hhead'
    cases hlive.symm.trans hlive'
    have hnew : (mem.write first { node with segm }).nodes first = some { node with segm } := by
      rw [nodes_write hlive, Function.update_self]
    have hkept := hrest.write hlive (List.nodup_cons.mp hnodup).1 { node with segm }
    have hcons :=
      (show ListOf _ (SegmentNode.next { node with segm }) path rest from hkept).cons hnew
    refine ⟨first :: path, ?_, ?_⟩
    · rw [← List.append_assoc, ← hpayload]
      exact hcons
    · rw [List.length_append, ← hlen, Nat.add_comm]

theorem Carries.fillHead {turns : Nat} (more : List UInt8)
    (hbytes : bytes ≠ []) (hturns : more.length ≤ turns) :
    Ensures (fun _ => False) (fun r => r.2.Carries r.1 (more ++ bytes))
      (cb.fillHead pools turns mem more) := by
  induction turns generalizing mem cb bytes more with
  | zero =>
    rw [List.eq_nil_of_length_eq_zero (Nat.le_zero.mp hturns)]
    simpa [ControlBlock.fillHead, Ensures] using h
  | succ turns ih =>
    cases more with
    | nil => simpa [ControlBlock.fillHead, Ensures] using h
    | cons byte rest =>
      rw [List.length_cons] at hturns
      rw [ControlBlock.fillHead]
      refine (h.provideHeadroom hbytes (Nat.succ_pos _)).bind ?_
      rintro ⟨mem', cb'⟩ ⟨hcarries, first, node, hhead, hlive, hroom⟩
      have hread : mem'.read cb'.head = .ok node := by rw [hhead, read_live hlive]
      dsimp only
      rw [hread, ok_bind]
      generalize hchunk : min node.segm.headroom (rest.length + 1) = toWrite
      have hlength : ((byte :: rest).drop (rest.length + 1 - toWrite)).length = toWrite := by
        rw [List.length_drop, List.length_cons]
        omega
      have hstep := hcarries.prependTo ((byte :: rest).drop (rest.length + 1 - toWrite)) hhead
        hlive (by omega)
      rw [hlength] at hstep
      refine hstep.bind fun mem'' hmem'' => ?_
      have htake : ((byte :: rest).take (rest.length + 1 - toWrite)).length = rest.length + 1 - toWrite := by
        rw [List.length_take, List.length_cons]
        omega
      have hrest := ih hmem'' ((byte :: rest).take (rest.length + 1 - toWrite))
        (by simp [hbytes]) (by omega)
      rwa [← List.append_assoc, List.take_append_drop] at hrest

end ControlBlock
end Srsran.Adt

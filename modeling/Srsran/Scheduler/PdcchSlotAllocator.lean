import Mathlib.Data.Finset.SDiff
import Mathlib.Data.Finset.Basic
import Mathlib.Data.List.Basic
import Mathlib.Algebra.BigOperators.Group.List.Basic

/-! The PDCCHs of a slot (`pdcch_slot_resource_allocator.cpp`), with the creation of a PDCCH of
`pdcch_resource_allocator_impl.cpp`. The DL grid of the slot is the set of its resource blocks in use. -/
namespace Srsran.Scheduler

/-- A CRB of an OFDM symbol in the grid of a carrier. -/
structure GridResource where
  scs : Nat
  symbol : Nat
  crb : Nat
  deriving DecidableEq, Repr

structure PdcchCandidate where
  ncce : Nat
  crbs : List Nat
  deriving DecidableEq, Repr

structure DciContextPtr where
  isDl : Bool
  index : Nat
  deriving DecidableEq, Repr

/-- `alloc_record` with the subcarrier spacing and the duration that it reads through its context. -/
structure AllocRecord where
  pdcchCtx : DciContextPtr
  scs : Nat
  duration : Nat
  pdcchCandidates : List PdcchCandidate
  deriving DecidableEq, Repr

structure TreeNode where
  dciIterIndex : Nat
  ncce : Nat
  recordIndex : Nat
  deriving DecidableEq, Repr

def AllocRecord.resources (record : AllocRecord) (candidate : PdcchCandidate) : Finset GridResource :=
  ((List.range record.duration).flatMap fun symbol =>
    candidate.crbs.map fun crb => ⟨record.scs, symbol, crb⟩).toFinset

/-- The grid with the candidate, unless the candidate collides. -/
def allocateCce (grid : Finset GridResource) (record : AllocRecord) (candidate : PdcchCandidate) :
    Option (Finset GridResource) :=
  if ∃ resource ∈ record.resources candidate, resource ∈ grid then none
  else some (grid ∪ record.resources candidate)

def allocDfsNodeLoop (grid : Finset GridResource) (dfsTree : List TreeNode) (record : AllocRecord) :
    Nat → List PdcchCandidate → Option (Finset GridResource × List TreeNode)
  | _, [] => none
  | index, candidate :: candidates =>
    match allocateCce grid record candidate with
    | some grid => some (grid, dfsTree ++ [⟨index, candidate.ncce, dfsTree.length⟩])
    | none => allocDfsNodeLoop grid dfsTree record (index + 1) candidates

def allocDfsNode (grid : Finset GridResource) (dfsTree : List TreeNode) (record : AllocRecord)
    (dciIterIndex : Nat) : Option (Finset GridResource × List TreeNode) :=
  allocDfsNodeLoop grid dfsTree record dciIterIndex (record.pdcchCandidates.drop dciIterIndex)

/-- The inner loop of `get_next_dfs`, over the records that have no node. -/
def growDfs : Finset GridResource → List TreeNode → List AllocRecord → Nat →
    Finset GridResource × List TreeNode
  | grid, dfsTree, [], _ => (grid, dfsTree)
  | grid, dfsTree, record :: records, startChildIdx =>
    match allocDfsNode grid dfsTree record startChildIdx with
    | some (grid, dfsTree) => growDfs grid dfsTree records 0
    | none => (grid, dfsTree)

/-- `get_next_dfs`; none when the fuel does not suffice. A node leaves the tree, but its resources stay
in the grid. -/
def getNextDfs (records : List AllocRecord) :
    Nat → Finset GridResource → List TreeNode → Option (Finset GridResource × List TreeNode × Bool)
  | 0, _, _ => none
  | fuel + 1, grid, dfsTree =>
    match dfsTree.getLast? with
    | none => some (grid, dfsTree, false)
    | some node =>
      let dfsTree := dfsTree.dropLast
      let (grid, dfsTree) :=
        growDfs grid dfsTree (records.drop dfsTree.length) (node.dciIterIndex + 1)
      if dfsTree.length < records.length then getNextDfs records fuel grid dfsTree
      else some (grid, dfsTree, true)

/-- The result of the search: the grid, the tree, the saved tree, and whether there is a node for the
new record. -/
abbrev DfsResult := Finset GridResource × List TreeNode × List TreeNode × Bool

/-- The loop of `alloc_pdcch`. -/
def searchDfs (records : List AllocRecord) (record : AllocRecord) (innerFuel : Nat) :
    Nat → Finset GridResource → List TreeNode → List TreeNode → Option DfsResult
  | 0, _, _, _ => none
  | fuel + 1, grid, dfsTree, savedDfsTree =>
    match allocDfsNode grid dfsTree record 0 with
    | some (grid, dfsTree) => some (grid, dfsTree, savedDfsTree, true)
    | none =>
      let savedDfsTree := if savedDfsTree.isEmpty then dfsTree else savedDfsTree
      match getNextDfs records innerFuel grid dfsTree with
      | none => none
      | some (grid, dfsTree, true) => searchDfs records record innerFuel fuel grid dfsTree savedDfsTree
      | some (grid, dfsTree, false) => some (grid, dfsTree, savedDfsTree, false)

def dfsWeight (records : List AllocRecord) : Nat :=
  (records.map fun record => record.pdcchCandidates.length + 1).prod

/-- The contexts of the results with their CCE, the grid, and the allocator. -/
structure PdcchSlot where
  dlPdcchs : List Nat := []
  ulPdcchs : List Nat := []
  dlResGrid : Finset GridResource := ∅
  records : List AllocRecord := []
  dfsTree : List TreeNode := []
  deriving DecidableEq

namespace PdcchSlot

def setNcce (s : PdcchSlot) (ctx : DciContextPtr) (ncce : Nat) : PdcchSlot :=
  if ctx.isDl then { s with dlPdcchs := s.dlPdcchs.set ctx.index ncce }
  else { s with ulPdcchs := s.ulPdcchs.set ctx.index ncce }

def ncce? (s : PdcchSlot) (ctx : DciContextPtr) : Option Nat :=
  if ctx.isDl then s.dlPdcchs[ctx.index]? else s.ulPdcchs[ctx.index]?

def updateNcces (records : List AllocRecord) (nodes : List TreeNode) (s : PdcchSlot) : PdcchSlot :=
  nodes.foldl (fun s node =>
    match records[node.recordIndex]? with
    | some record => s.setNcce record.pdcchCtx node.ncce
    | none => s) s

/-- `alloc_pdcch`; none when the search does not end. -/
def allocPdcch (s : PdcchSlot) (record : AllocRecord) : Option (Bool × PdcchSlot) :=
  let fuel := dfsWeight s.records + 1
  match searchDfs s.records record fuel fuel s.dlResGrid s.dfsTree [] with
  | none => none
  | some (grid, _, savedDfsTree, false) =>
    some (false, { s with dlResGrid := grid, dfsTree := savedDfsTree })
  | some (grid, dfsTree, savedDfsTree, true) =>
    let s := match dfsTree.getLast? with
      | some node => s.setNcce record.pdcchCtx node.ncce
      | none => s
    let s := { s with dlResGrid := grid, dfsTree, records := s.records ++ [record] }
    some (true, if savedDfsTree.isEmpty then s else updateNcces s.records dfsTree.dropLast s)

def lastCrbs (record : AllocRecord) (dfsTree : List TreeNode) : Finset GridResource :=
  match dfsTree.getLast?.bind fun node => record.pdcchCandidates[node.dciIterIndex]? with
  | some candidate => record.resources candidate
  | none => ∅

def cancelLastPdcch (s : PdcchSlot) : Bool × PdcchSlot :=
  match s.records.getLast? with
  | none => (false, s)
  | some record =>
    let released : PdcchSlot :=
      { s with
        dlResGrid := s.dlResGrid \ lastCrbs record s.dfsTree
        dfsTree := s.dfsTree.dropLast
        records := s.records.dropLast }
    if s.dlPdcchs ≠ [] ∧ record.pdcchCtx = ⟨true, s.dlPdcchs.length - 1⟩ then
      (true, { released with dlPdcchs := s.dlPdcchs.dropLast })
    else if s.ulPdcchs ≠ [] ∧ record.pdcchCtx = ⟨false, s.ulPdcchs.length - 1⟩ then
      (true, { released with ulPdcchs := s.ulPdcchs.dropLast })
    else (false, s)

/-- What the allocators of a DL or UL PDCCH hand over. -/
structure PdcchRequest where
  isDl : Bool
  scs : Nat
  duration : Nat
  candidates : List PdcchCandidate
  deriving DecidableEq, Repr

/-- The context of a new PDCCH, with CCE 0 until it is allocated. -/
def pushPdcch (s : PdcchSlot) (isDl : Bool) : PdcchSlot :=
  if isDl then { s with dlPdcchs := s.dlPdcchs ++ [0] } else { s with ulPdcchs := s.ulPdcchs ++ [0] }

def popPdcch (s : PdcchSlot) (isDl : Bool) : PdcchSlot :=
  if isDl then { s with dlPdcchs := s.dlPdcchs.dropLast }
  else { s with ulPdcchs := s.ulPdcchs.dropLast }

/-- The record of a request, whose context is the next of its list. -/
def recordOf (s : PdcchSlot) (request : PdcchRequest) : AllocRecord where
  pdcchCtx := ⟨request.isDl, if request.isDl then s.dlPdcchs.length else s.ulPdcchs.length⟩
  scs := request.scs
  duration := request.duration
  pdcchCandidates := request.candidates

/-- `alloc_dl_pdcch_helper` and `alloc_ul_pdcch_helper`. -/
def allocHelper (s : PdcchSlot) (request : PdcchRequest) : Option (Bool × PdcchSlot) :=
  match (s.pushPdcch request.isDl).allocPdcch (s.recordOf request) with
  | none => none
  | some (true, s) => some (true, s)
  | some (false, s) => some (false, s.popPdcch request.isDl)

inductive PdcchEvent where
  | alloc (request : PdcchRequest)
  | cancelLast
  deriving DecidableEq, Repr

def step (s : PdcchSlot) : PdcchEvent → Option PdcchSlot
  | .alloc request => (s.allocHelper request).map Prod.snd
  | .cancelLast => some s.cancelLastPdcch.2

end PdcchSlot

end Srsran.Scheduler

import Retrieval.CodeIndex.Ball
import Retrieval.Error

/-!
Sets of codes of one length that answer which of them are nearest to a query. The ball tree prunes
and the scan tries every code; both answer the `k` nearest in the order of hits.
-/
namespace Retrieval

/-- The length that `codes` share with each other and with `held`; the first other one is refused. -/
def commonLength (held : Option Nat) : List Code → Except Error (Option Nat)
  | [] => .ok held
  | code :: rest =>
    match held with
    | none => commonLength (some code.length) rest
    | some length =>
      if code.length = length then commonLength held rest
      else .error (.invalidConfig (.mixedLengths code.length length))

private def lengthText : Option Nat → String
  | none => "None"
  | some length => "Some(" ++ toString length ++ ")"

/-- Codes found by branch and bound. -/
structure BallTree where
  leafSize : Nat
  root : Option Ball
  members : SortedSet Code
  codeLength : Option Nat
deriving DecidableEq

namespace BallTree

def empty (leafSize : Nat) : BallTree := ⟨leafSize, none, ∅, none⟩

/-- An empty tree, unless the leaves could hold nothing. -/
def create (leafSize : Nat) : Except Error BallTree :=
  if leafSize = 0 then .error (.invalidConfig .leafSizeZero) else .ok (empty leafSize)

/-- Balls around all members, if there are any. -/
def plant (leafSize : Nat) (members : SortedSet Code) : Option Ball :=
  if members.isEmpty then none else some (Ball.grow leafSize members.toList)

/-- Hold exactly `codes`. -/
def build (t : BallTree) (codes : List Code) : Except Error BallTree := do
  let codeLength ← commonLength none codes
  let members := SortedSet.ofList codes
  return ⟨t.leafSize, plant t.leafSize members, members, codeLength⟩

/-- Add a code that is not held yet. -/
def add (t : BallTree) (code : Code) : BallTree :=
  { t with
    members := t.members.insert code
    root := some (match t.root with
      | some root => root.insert t.leafSize code
      | none => .leaf code 0 [code]) }

/-- Add the codes that are not held yet. -/
def update (t : BallTree) (codes : List Code) : Except Error BallTree := do
  let codeLength ← commonLength t.codeLength codes
  let fresh := SortedSet.ofList (codes.filter fun code => !t.members.contains code)
  return fresh.toList.foldl add { t with codeLength := codeLength }

/-- Take a code out if it is held. -/
def drop (t : BallTree) (code : Code) : BallTree :=
  if t.members.contains code then
    let root := t.root.bind fun root =>
      let rest := (root.remove code).getD root
      if rest.isEmpty then none else some rest
    { t with members := t.members.erase code, root := root }
  else t

/-- Take codes out; if one is not held, none is taken out. -/
def remove (t : BallTree) (codes : List Code) : Except Error BallTree :=
  match codes.find? fun code => !t.members.contains code with
  | some missing => .error (.unknownCode missing)
  | none =>
    let rest := codes.foldl drop t
    .ok { rest with codeLength := if rest.members.isEmpty then none else rest.codeLength }

/-- Grow the balls anew from the codes held. -/
def rebuild (t : BallTree) : BallTree := { t with root := plant t.leafSize t.members }

def nearest (t : BallTree) (query : Code) (k : Nat) : List Hit :=
  let k := min k t.members.size
  match t.root with
  | none => []
  | some root => if k = 0 then [] else root.search query k []

def depth (t : BallTree) : Nat := t.root.elim 0 Ball.depth

def describe (t : BallTree) : String :=
  "BallTreeHashIndex \x7b codes: " ++ toString t.members.size ++ ", bit_length: " ++
    lengthText t.codeLength ++ ", leaf_size: " ++ toString t.leafSize ++ ", depth: " ++
    toString t.depth ++ " \x7d"

end BallTree

/-- Codes found by trying every one. -/
structure CodeScan where
  members : SortedSet Code
  codeLength : Option Nat
deriving DecidableEq

namespace CodeScan

def empty : CodeScan := ⟨∅, none⟩

/-- Hold exactly `codes`. -/
def build (_ : CodeScan) (codes : List Code) : Except Error CodeScan := do
  let codeLength ← commonLength none codes
  return ⟨SortedSet.ofList codes, codeLength⟩

def update (s : CodeScan) (codes : List Code) : Except Error CodeScan := do
  let codeLength ← commonLength s.codeLength codes
  return ⟨s.members.insertMany codes, codeLength⟩

/-- Take codes out; if one is not held, none is taken out. -/
def remove (s : CodeScan) (codes : List Code) : Except Error CodeScan :=
  match codes.find? fun code => !s.members.contains code with
  | some missing => .error (.unknownCode missing)
  | none =>
    let members := s.members.eraseMany codes
    .ok ⟨members, if members.isEmpty then none else s.codeLength⟩

def nearest (s : CodeScan) (query : Code) (k : Nat) : List Hit :=
  let k := min k s.members.size
  if k = 0 then [] else offerAll query k [] s.members.toList

def describe (s : CodeScan) : String :=
  "LinearHashIndex \x7b codes: \x7b" ++
    ", ".intercalate (s.members.toList.map Code.describe) ++ "\x7d, bit_length: " ++
    lengthText s.codeLength ++ " \x7d"

end CodeScan

/-- How an index looks for near codes. -/
inductive CodeSearch where
  | ballTree (leafSize : Nat)
  | linear
deriving DecidableEq

/-- A searchable set of codes of either kind. -/
inductive CodeIndex where
  | tree (tree : BallTree)
  | scan (scan : CodeScan)
deriving DecidableEq

namespace CodeSearch

/-- A ball tree with up to forty codes to a leaf. -/
instance : Inhabited CodeSearch := ⟨.ballTree 40⟩

def create : CodeSearch → Except Error CodeIndex
  | .ballTree leafSize => (BallTree.create leafSize).map .tree
  | .linear => .ok (.scan .empty)

end CodeSearch

namespace CodeIndex

def build : CodeIndex → List Code → Except Error CodeIndex
  | tree t, codes => (t.build codes).map tree
  | scan s, codes => (s.build codes).map scan

def update : CodeIndex → List Code → Except Error CodeIndex
  | tree t, codes => (t.update codes).map tree
  | scan s, codes => (s.update codes).map scan

def remove : CodeIndex → List Code → Except Error CodeIndex
  | tree t, codes => (t.remove codes).map tree
  | scan s, codes => (s.remove codes).map scan

/-- Tighten what updates have loosened; a scan has nothing to tighten. -/
def rebuild : CodeIndex → CodeIndex
  | tree t => tree t.rebuild
  | scan s => scan s

def members : CodeIndex → SortedSet Code
  | tree t => t.members
  | scan s => s.members

/-- Up to `k` codes nearest to `query`, in the order of hits. -/
def nearest : CodeIndex → Code → Nat → List Hit
  | tree t, query, k => t.nearest query k
  | scan s, query, k => s.nearest query k

def contains (ix : CodeIndex) (code : Code) : Bool := ix.members.contains code

/-- Every code held, in ascending order. -/
def codes (ix : CodeIndex) : List Code := ix.members.toList

def size (ix : CodeIndex) : Nat := ix.members.size

def isEmpty (ix : CodeIndex) : Bool := ix.members.isEmpty

/-- The height of a tree; a scan has none. -/
def depth? : CodeIndex → Option Nat
  | tree t => some t.depth
  | scan _ => none

def describe : CodeIndex → String
  | tree t => t.describe
  | scan s => s.describe

end CodeIndex
end Retrieval

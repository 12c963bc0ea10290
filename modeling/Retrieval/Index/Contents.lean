import Retrieval.CodeIndex.Basic

/-!
What an index holds: every id under one code, the ids of each code, and the codes in a form that can
be searched. Filing an id only touches the first two; the codes that appeared or went are brought
over to the search afterwards.
-/
namespace Retrieval

structure Contents where
  built : Bool
  buckets : SortedMap Code (SortedSet String)
  codes : SortedMap String Code
  handles : SortedMap String Key
  search : CodeIndex
deriving DecidableEq

namespace Contents

/-- Nothing, not yet built. -/
def empty (search : CodeSearch) : Except Error Contents :=
  search.create.map fun codeIndex => ⟨false, ∅, ∅, ∅, codeIndex⟩

/-- Take an id out of the bucket of `code`, and answer the code if that was its last member. -/
def leave (c : Contents) (id : String) (code : Code) : Contents × Option Code :=
  match c.buckets.get? code with
  | none => (c, none)
  | some bucket =>
    let rest := bucket.erase id
    if rest.isEmpty then ({ c with buckets := c.buckets.erase code }, some code)
    else ({ c with buckets := c.buckets.insert code rest }, none)

/-- Put an id under `code`, and tell whether it is the first one there. -/
def join (c : Contents) (key : Key) (code : Code) : Contents × Bool :=
  let bucket := (c.buckets.get? code).getD ∅
  ({ c with
      buckets := c.buckets.insert code (bucket.insert key.id)
      codes := c.codes.insert key.id code
      handles := c.handles.insert key.id key }, bucket.isEmpty)

/-- Let an id leave the code it is under, unless that is the code it is to have. -/
def vacate (c : Contents) (id : String) (code : Code) : Contents × Option Code :=
  match c.codes.get? id with
  | none => (c, none)
  | some old => if old = code then (c, none) else c.leave id old

/-- Move the id of `key` under `code`; answer the code it emptied and whether the new one is fresh. -/
def assign (c : Contents) (key : Key) (code : Code) : Contents × Option Code × Bool :=
  let left := c.vacate key.id code
  let joined := left.1.join key code
  (joined.1, left.2, joined.2)

/-- Assign each key in turn; answer the codes that lost their last id and those that got a first. -/
def assignAll (c : Contents) : List (Key × Code) → Contents × List Code × List Code
  | [] => (c, [], [])
  | (key, code) :: rest =>
    let (c, emptied, fresh) := c.assign key code
    let (c, allEmptied, allFresh) := c.assignAll rest
    (c, emptied.toList ++ allEmptied, if fresh then code :: allFresh else allFresh)

/-- Drop what is known of an id; its bucket still has it. -/
def strike (c : Contents) (id : String) : Contents :=
  { c with codes := c.codes.erase id, handles := c.handles.erase id }

/-- Take ids out; answer the codes that lost their last id and how many ids were there. -/
def removeAll (c : Contents) : List String → Contents × List Code × Nat
  | [] => (c, [], 0)
  | id :: rest =>
    match c.codes.get? id with
    | none => c.removeAll rest
    | some code =>
      let (c, emptied) := (c.strike id).leave id code
      let (c, allEmptied, count) := c.removeAll rest
      (c, emptied.toList ++ allEmptied, count + 1)

/-- Bring the search in line with the buckets for the codes named. Codes go before others come, and
what has been done stays done if the search refuses a code. -/
def sync (c : Contents) (emptied fresh : List Code) : Contents × Except Error Unit :=
  let gone := (SortedSet.ofList emptied).toList.filter fun code =>
    !c.buckets.contains code && c.search.contains code
  let come := (SortedSet.ofList fresh).toList.filter fun code =>
    c.buckets.contains code && !c.search.contains code
  match if gone.isEmpty then .ok c.search else c.search.remove gone with
  | .error e => (c, .error e)
  | .ok search =>
    match if come.isEmpty then .ok search else search.update come with
    | .error e => ({ c with search := search }, .error e)
    | .ok search => ({ c with search := search }, .ok ())

/-- Hold what the buckets say and nothing else. -/
def plant (c : Contents) : Except Error Contents :=
  (c.search.build c.buckets.keys).map fun search => { c with search := search, built := true }

end Contents
end Retrieval

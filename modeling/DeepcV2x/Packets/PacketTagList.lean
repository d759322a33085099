import DeepcV2x.Foundation.SharedLists
import DeepcV2x.Packets.ByteTagList

/-!
# The packet tag list

The tags of packets are nodes of a tree, whose `next` pointers lead to its root.
A list is a pointer at a node, and copied lists share their nodes until they are
changed.  A null pointer that is followed and a failed assertion end the run.
-/

namespace DeepcV2x.Packets

open Foundation.Sharing Foundation.SharedLists

/-- `TagData`: the next node, and the tag as it was serialized. -/
abbrev TagData := Node Tag

/-- The nodes of all lists, with their counts. -/
abbrev TagTree := Arena TagData

namespace PacketTagList

/-- `CreateTagData`, with the next node and the tag that are put into it. -/
def createTagData (tree : TagTree) (next : Option Nat) (tag : Tag) : Option (Nat × TagTree) :=
  if tag.data.length < 4294967295 then some (create tree ⟨next, tag⟩) else none

/-- More steps than a list has nodes. -/
def steps (tree : TagTree) : Nat := tree.cells.length + 1

/-- The first tag of a type from a node on. -/
def findTag (tree : TagTree) (tid : Nat) : Nat → Option Nat → Option (Option Tag)
  | 0, _ => none
  | _ + 1, none => some none
  | fuel + 1, some cur => do
      let data ← tree.block cur
      if data.value.tid = tid then some (some data.value) else findTag tree tid fuel data.next

/-- The first node that is a merge or has the type, and the pointer at it. -/
def search (tree : TagTree) (tid : Nat) :
    Nat → Option Nat → Option Nat → Option (Option Nat × Option Nat)
  | 0, _, _ => none
  | _ + 1, prevNext, none => some (prevNext, none)
  | fuel + 1, prevNext, some cur => do
      let cell ← tree.cell cur
      if cell.count > 1 then some (prevNext, some cur)
      else if cell.block.value.tid = tid then some (prevNext, some cur)
      else search tree tid fuel (some cur) cell.block.next

/-- A further pointer at a node, if there is one. -/
def merge (tree : TagTree) : Option Nat → TagTree
  | none => tree
  | some next => tree.retain next

/-- The nodes from a merge on are copied until one has the type; also the pointer at that one. -/
def copyUntil (tid : Nat) :
    Nat → TagTree × Option Nat → Option Nat → Nat →
      Option ((TagTree × Option Nat) × Option Nat × Nat)
  | 0, _, _, _ => none
  | fuel + 1, (tree, first), prevNext, cur => do
      let cell ← tree.cell cur
      if cell.block.value.tid = tid then some ((tree, first), prevNext, cur)
      else if cell.count > 1 then
        let next ← cell.block.next
        let (copy, tree) ← createTagData (unmerge tree cur) (some next) cell.block.value
        copyUntil tid fuel (assign (merge tree (some next)) first prevNext (some copy)) (some copy)
          next
      else none

/-- A `COWWriter`: the list that it leaves, and the tag. -/
abbrev COWWriter := Bool → Nat → Option Nat → TagTree × Option Nat →
  Option ((TagTree × Option Nat) × Tag)

/-- `COWTraverse`: the list, and the tag if its type is found. -/
def cowTraverse (tid : Nat) (writer : COWWriter) (tree : TagTree) (first : Option Nat) :
    Option ((TagTree × Option Nat) × Option Tag) := do
  if first = none then some ((tree, first), none)
  else
    let (prevNext, cur) ← search tree tid (steps tree) none first
    match cur with
    | none => some ((tree, first), none)
    | some cur => do
        let cell ← tree.cell cur
        if cell.count > 1 then
          let it ← findTag tree tid (steps tree) (some cur)
          if it = none then some ((tree, first), none)
          else
            let (list, prevNext, cur) ← copyUntil tid (steps tree) (tree, first) prevNext cur
            let last ← list.1.cell cur
            if last.count > 1 then
              (writer false cur prevNext list).map fun (list, tag) => (list, some tag)
            else none
        else (writer true cur prevNext (tree, first)).map fun (list, tag) => (list, some tag)

/-- `RemoveWriter`. -/
def removeWriter : COWWriter := fun preMerge cur prevNext list => do
  let data ← list.1.block cur
  let (tree, first) := assign list.1 list.2 prevNext data.next
  if preMerge then some ((tree.delete cur, first), data.value)
  else some ((merge (unmerge tree cur) data.next, first), data.value)

/-- A tag is written over the data of a node, whose size stays. -/
def rewrite (tag : Tag) (data : TagData) : TagData :=
  { data with
    value := { data.value with data := tag.data ++ data.value.data.drop tag.data.length } }

/-- `ReplaceWriter`; a tag that is larger than the data of the node does not fit its buffer. -/
def replaceWriter (tag : Tag) : COWWriter := fun preMerge cur prevNext list => do
  let data ← list.1.block cur
  if preMerge then
    if tag.data.length ≤ data.value.data.length then
      some ((list.1.write cur (rewrite tag), list.2), tag)
    else none
  else
    let (copy, tree) ← createTagData (unmerge list.1 cur) data.next tag
    some (assign (merge tree data.next) list.2 prevNext (some copy), tag)

/-- `Add`, which asserts that the type is new. -/
def add (tree : TagTree) (first : Option Nat) (tag : Tag) : Option (TagTree × Option Nat) := do
  let cur ← findTag tree tag.tid (steps tree) first
  if cur = none then
    let (head, tree) ← createTagData tree first tag
    some (tree, some head)
  else none

/-- `Remove`. -/
def remove (tree : TagTree) (first : Option Nat) (tid : Nat) :
    Option ((TagTree × Option Nat) × Option Tag) :=
  cowTraverse tid removeWriter tree first

/-- `Replace`. -/
def replace (tree : TagTree) (first : Option Nat) (tag : Tag) :
    Option ((TagTree × Option Nat) × Option Tag) := do
  let (list, found) ← cowTraverse tag.tid (replaceWriter tag) tree first
  if found = none then (add list.1 list.2 tag).map fun list => (list, none)
  else some (list, found)

/-- `Peek`. -/
def peek (tree : TagTree) (first : Option Nat) (tid : Nat) : Option (Option Tag) :=
  findTag tree tid (steps tree) first

/-- A node is freed when it is there. -/
def free (tree : TagTree) : Option Nat → TagTree
  | none => tree
  | some prev => tree.delete prev

/-- The loop of `RemoveAll`. -/
def removeAllFrom : Nat → TagTree → Option Nat → Option Nat → Option TagTree
  | 0, _, _, _ => none
  | _ + 1, tree, prev, none => some (free tree prev)
  | fuel + 1, tree, prev, some cur => do
      let cell ← tree.cell cur
      if cell.count - 1 > 0 then some (free (unmerge tree cur) prev)
      else removeAllFrom fuel (free (unmerge tree cur) prev) (some cur) cell.block.next

/-- `RemoveAll`. -/
def removeAll (tree : TagTree) (first : Option Nat) : Option (TagTree × Option Nat) :=
  (removeAllFrom (steps tree) tree none first).map fun tree => (tree, none)

end PacketTagList

/-! ## Several lists -/

/-- The lists, and the nodes that they share. -/
structure TagLists where
  tree : TagTree := Arena.empty
  lists : List (Option Nat) := []

/-- A new list, a copy of one, or a call of a method of one. -/
inductive TagCall
  | create
  | copy (other : Nat)
  | assign (list other : Nat)
  | removeAll (list : Nat)
  | add (list : Nat) (tag : Tag)
  | remove (list : Nat) (tid : Nat)
  | replace (list : Nat) (tag : Tag)
  | peek (list : Nat) (tid : Nat)

/-- What a call returns: nothing, whether it found the type, or the tag that it found. -/
inductive TagAnswer
  | done
  | found (found : Bool)
  | tag (found : Option Tag)
  deriving DecidableEq

namespace TagLists

open PacketTagList

/-- A list after a call. -/
def update (lists : TagLists) (list : Nat) (result : TagTree × Option Nat) : TagLists :=
  ⟨result.1, lists.lists.set list result.2⟩

/-- A further list with the nodes of another one. -/
def copyOf (lists : TagLists) (first : Option Nat) : TagLists :=
  ⟨merge lists.tree first, lists.lists ++ [first]⟩

/-- `operator=`. -/
def assignTo (lists : TagLists) (list : Nat) (first other : Option Nat) : Option TagLists :=
  if first = other then some lists
  else (removeAll lists.tree first).map fun result =>
    lists.update list (merge result.1 other, other)

def step (lists : TagLists) : TagCall → Option (TagLists × TagAnswer)
  | .create => some ({ lists with lists := lists.lists ++ [none] }, .done)
  | .copy other => do
      let first ← lists.lists[other]?
      some (lists.copyOf first, .done)
  | .assign list other => do
      let first ← lists.lists[list]?
      let target ← lists.lists[other]?
      (lists.assignTo list first target).map fun next => (next, .done)
  | .removeAll list => do
      let first ← lists.lists[list]?
      (removeAll lists.tree first).map fun result => (lists.update list result, .done)
  | .add list tag => do
      let first ← lists.lists[list]?
      (PacketTagList.add lists.tree first tag).map fun result => (lists.update list result, .done)
  | .remove list tid => do
      let first ← lists.lists[list]?
      (remove lists.tree first tid).map fun result => (lists.update list result.1, .tag result.2)
  | .replace list tag => do
      let first ← lists.lists[list]?
      (replace lists.tree first tag).map fun result =>
        (lists.update list result.1, .found result.2.isSome)
  | .peek list tid => do
      let first ← lists.lists[list]?
      (peek lists.tree first tid).map fun found => (lists, .tag found)

end TagLists

end DeepcV2x.Packets

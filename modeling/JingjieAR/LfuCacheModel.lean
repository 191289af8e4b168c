import JingjieAR.OrderedMap
import JingjieAR.TransitionRuns
import Mathlib.Data.Int.Notation
import Mathlib.Data.Nat.Basic

/-! The LFU cache with aging of `LFU.h`. Nodes are known by their keys; a frequency list is
the list of the keys linked in it. `none` stands for a dereference of a null pointer or of
a sentinel. -/
namespace JingjieAR

structure LfuNode (κ ν : Type) where
  key : κ
  value : ν
  freq : ℕ := 1
deriving DecidableEq

/-- One slice. The counters are integers without a bound. -/
structure KLfuCache (κ ν : Type) where
  capacity : ℕ
  maxAverageNum : ℕ := 10
  minFreq : ℕ := 127
  curAverageNum : ℤ := 0
  curTotalNum : ℤ := 0
  nodeMap : List (LfuNode κ ν) := []
  freqToFreqList : OrderedMap ℕ (List κ) := .empty

def INT8_MAX : ℕ := 127

/-- The nodes, with this one in the place of the one that has its key. -/
def replaceNode {κ ν : Type} [DecidableEq κ] (nodes : List (LfuNode κ ν)) (node : LfuNode κ ν) :
    List (LfuNode κ ν) :=
  nodes.map (fun n => if n.key = node.key then node else n)

namespace KLfuCache

variable {κ ν : Type} [DecidableEq κ]

def find (c : KLfuCache κ ν) (key : κ) : Option (LfuNode κ ν) :=
  c.nodeMap.find? (fun n => n.key = key)

/-- The node is unlinked from whichever list it is in, but it is the list of its frequency
that is asked, and that must be there. -/
def removeFromFreqList (c : KLfuCache κ ν) (node : LfuNode κ ν) : Option (KLfuCache κ ν) :=
  match c.freqToFreqList.find node.freq with
  | none => none
  | some _ => some { c with
      freqToFreqList := c.freqToFreqList.mapValues (fun list => list.erase node.key) }

def addToFreqList (c : KLfuCache κ ν) (node : LfuNode κ ν) : KLfuCache κ ν :=
  { c with
    freqToFreqList := c.freqToFreqList.insert node.freq
      ((c.freqToFreqList.find node.freq).getD []++[node.key]) }

/-- Assign to the node that the map has for this key. -/
def setNode (c : KLfuCache κ ν) (node : LfuNode κ ν) : KLfuCache κ ν :=
  { c with nodeMap := replaceNode c.nodeMap node }

/-- Out of its list, to another frequency, and into the list of that. -/
def moveNode (c : KLfuCache κ ν) (node : LfuNode κ ν) (freq : ℕ) : Option (KLfuCache κ ν) :=
  (c.removeFromFreqList node).map (fun c =>
    (c.setNode { node with freq := freq }).addToFreqList { node with freq := freq })

/-- The smallest index of a list that is not empty, as far as there is one below 127. The
order in which the table is visited does not matter. -/
def updateMinFreq (c : KLfuCache κ ν) : KLfuCache κ ν :=
  let minFreq := c.freqToFreqList.entries.foldl
    (fun minFreq pair => if !pair.2.isEmpty then min minFreq pair.1 else minFreq) INT8_MAX
  { c with minFreq := if minFreq = INT8_MAX then 1 else minFreq }

/-- The frequency of a node after aging. -/
def agedFreq (c : KLfuCache κ ν) (node : LfuNode κ ν) : ℕ :=
  let freq := node.freq-c.maxAverageNum / 2
  if freq < 1 then 1 else freq

/-- One turn of the loop of `handleOverMaxAverageNum`. -/
def ageNode (c : KLfuCache κ ν) (node : LfuNode κ ν) : Option (KLfuCache κ ν) :=
  c.moveNode node (c.agedFreq node)

def handleOverMaxAverageNum (c : KLfuCache κ ν) (visit : Iteration (LfuNode κ ν)) :
    Option (KLfuCache κ ν) :=
  if c.nodeMap.isEmpty then some c
  else ((visit.order c.nodeMap).foldlM ageNode c).map updateMinFreq

/-- `curTotalNum_` changes, and `curAverageNum_` with it. -/
def count (c : KLfuCache κ ν) (curTotalNum : ℤ) : KLfuCache κ ν :=
  { c with
    curTotalNum := curTotalNum
    curAverageNum := if c.nodeMap.isEmpty then 0 else curTotalNum / c.nodeMap.length }

def addFreqNum (c : KLfuCache κ ν) (visit : Iteration (LfuNode κ ν)) : Option (KLfuCache κ ν) :=
  let c := c.count (c.curTotalNum+1)
  if c.curAverageNum > c.maxAverageNum then c.handleOverMaxAverageNum visit else some c

def decreaseFreqNum (c : KLfuCache κ ν) (num : ℕ) : KLfuCache κ ν := c.count (c.curTotalNum-num)

/-- The last node of the lowest list has gone up from this frequency. -/
def raiseMinFreq (c : KLfuCache κ ν) (freq : ℕ) : Option (KLfuCache κ ν) :=
  if freq = c.minFreq then
    (c.freqToFreqList.find freq).map (fun list =>
      if list.isEmpty then { c with minFreq := c.minFreq+1 } else c)
  else some c

def getInternal (c : KLfuCache κ ν) (node : LfuNode κ ν) (visit : Iteration (LfuNode κ ν)) :
    Option (ν × KLfuCache κ ν) := do
  let c ← c.moveNode node (node.freq+1)
  let c ← c.raiseMinFreq node.freq
  let c ← c.addFreqNum visit
  some (node.value, c)

def kickOut (c : KLfuCache κ ν) : Option (KLfuCache κ ν) :=
  match c.freqToFreqList.find c.minFreq with
  | none => none
  -- The first node is the sentinel.
  | some [] => none
  | some (key :: _) => do
    let node ← c.find key
    let c ← c.removeFromFreqList node
    some ({ c with
      nodeMap := c.nodeMap.filter (fun n => n.key ≠ node.key) }.decreaseFreqNum node.freq)

/-- The first half of `putInternal`. -/
def makeRoom (c : KLfuCache κ ν) : Option (KLfuCache κ ν) :=
  if c.nodeMap.length = c.capacity then c.kickOut else some c

def putInternal (c : KLfuCache κ ν) (key : κ) (value : ν) (visit : Iteration (LfuNode κ ν)) :
    Option (KLfuCache κ ν) := do
  let c ← c.makeRoom
  let node : LfuNode κ ν := { key := key, value := value }
  let c ← ({ c with nodeMap := c.nodeMap++[node] }.addToFreqList node).addFreqNum visit
  some { c with minFreq := min c.minFreq 1 }

def put (c : KLfuCache κ ν) (key : κ) (value : ν) (visit : Iteration (LfuNode κ ν)) :
    Option (KLfuCache κ ν) :=
  if c.capacity = 0 then some c
  else
    match c.find key with
    | some node =>
      let node := { node with value := value }
      ((c.setNode node).getInternal node visit).map Prod.snd
    | none => c.putInternal key value visit

def get (c : KLfuCache κ ν) (key : κ) (visit : Iteration (LfuNode κ ν)) :
    Option (Option ν × KLfuCache κ ν) :=
  match c.find key with
  | some node => (c.getInternal node visit).map (Prod.map some id)
  | none => some (none, c)

/-- The counters and `minFreq_` stay as they are. -/
def purge (c : KLfuCache κ ν) : KLfuCache κ ν := { c with nodeMap := [], freqToFreqList := .empty }

end KLfuCache

/-- A call, with the order in which it visits the nodes if it ages them. -/
inductive LfuCall (κ ν : Type)
  | put (key : κ) (value : ν) (visit : Iteration (LfuNode κ ν))
  | get (key : κ) (visit : Iteration (LfuNode κ ν))
  | purge

namespace KLfuCache

variable {κ ν : Type} [DecidableEq κ]

def next (c : KLfuCache κ ν) : LfuCall κ ν → Option (KLfuCache κ ν)
  | .put key value visit => c.put key value visit
  | .get key visit => (c.get key visit).map Prod.snd
  | .purge => some c.purge

def Step (c : KLfuCache κ ν) (call : LfuCall κ ν) (c' : KLfuCache κ ν) : Prop :=
  c.next call = some c'

end KLfuCache

end JingjieAR

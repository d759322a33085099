import DeepcV2x.Foundation.Runs
import DeepcV2x.Tcp.SequenceNumber

/-!
# The transmission buffer

`TcpTxBuffer`: the items sent and not acknowledged, the application data behind
them, and the scoreboard of bytes sacked, lost and retransmitted.  Assertions
are enabled: a failed one, a fatal error and reading behind the end of a list
end the run.
-/

namespace DeepcV2x.Tcp

open SequenceNumber32

/-- `Time::Max()` in nanoseconds. -/
def timeMax : Nat := 9223372036854775807

/-- `TcpTxItem`, with the node of the list that holds it. -/
structure TcpTxItem where
  node : Nat
  startSeq : Nat := 0
  packet : List UInt8
  lost : Bool := false
  lastSent : Nat := timeMax
  sacked : Bool := false
  retrans : Bool := false
  deriving DecidableEq, Repr

def TcpTxItem.size (item : TcpTxItem) : Nat := item.packet.length

/-- The members of the buffer; an iterator is a node, or `none` at the end of the list. -/
structure TcpTxBuffer where
  appList : List TcpTxItem := []
  sentList : List TcpTxItem := []
  maxBuffer : Nat := 32768
  size : Nat := 0
  sentSize : Nat := 0
  firstByteSeq : Nat := 0
  highestSack : Option Nat × Nat := (some 0, 0)
  lostOut : Nat := 0
  sackedOut : Nat := 0
  retrans : Nat := 0
  dupAckThresh : Nat := 0
  renoSack : Bool := false
  sackEnabled : Bool := true
  nextNode : Nat := 1
  deriving DecidableEq, Repr

/-! ## Splitting and merging -/

/-- `SplitItems`: the new item gets the first bytes. -/
def splitItems (node : Nat) (item : TcpTxItem) (size : Nat) : TcpTxItem × TcpTxItem :=
  ({ item with node := node, packet := item.packet.take size },
    { item with packet := item.packet.drop size, startSeq := add32 item.startSeq size })

/-- `MergeItems`, with the count of retransmitted bytes it corrects. -/
def mergeItems (retrans : Nat) (t1 t2 : TcpTxItem) : Option (Nat × TcpTxItem) :=
  if t1.sacked ≠ t2.sacked ∨ t1.lost ≠ t2.lost then none
  else
    some (
      if t1.retrans = t2.retrans then retrans
      else sub32 retrans (if t1.retrans then t1.size else t2.size),
      { t1 with
        retrans := t1.retrans && t2.retrans
        lastSent := if t1.lastSent < t2.lastSent then t2.lastSent else t1.lastSent
        packet := t1.packet ++ t2.packet })

/-! ## Finding a packet -/

/-- An item of a list, where it begins, and the items before and behind it. -/
structure Cursor where
  before : List TcpTxItem
  beginOfCurrentPacket : Nat
  item : TcpTxItem
  after : List TcpTxItem

/-- The walk to the first item that does not end at or before a sequence number. -/
def walk (sent : Bool) (firstByteSeq seq : Nat) :
    List TcpTxItem → Nat → List TcpTxItem → Option Cursor
  | _, _, [] => none
  | before, beginOfCurrentPacket, item :: items =>
      if sent = true ∧ ¬ Ge item.startSeq firstByteSeq then none
      else if Lt seq (add32 beginOfCurrentPacket item.size) then
        some ⟨before, beginOfCurrentPacket, item, items⟩
      else
        walk sent firstByteSeq seq (before ++ [item]) (add32 beginOfCurrentPacket item.size) items

/-- An item of the edited list, with the count and the nodes. -/
structure Found where
  before : List TcpTxItem
  item : TcpTxItem
  after : List TcpTxItem
  retrans : Nat
  nextNode : Nat

/-- A call of `GetPacketFromList` returns an item, calls itself on the edited list, or is fatal. -/
inductive Outcome
  | found (result : Found)
  | again (list : List TcpTxItem) (retrans nextNode : Nat)
  | fatal

/-- What is done at the item the walk stops at. -/
def atCursor (numBytes seq retrans nextNode : Nat) (cursor : Cursor) : Outcome :=
  if seq = cursor.beginOfCurrentPacket then
    if Le (add32 seq numBytes) (add32 cursor.beginOfCurrentPacket cursor.item.size) then
      if numBytes = cursor.item.size then
        .found ⟨cursor.before, cursor.item, cursor.after, retrans, nextNode⟩
      else if numBytes < cursor.item.size then
        .found ⟨cursor.before, (splitItems nextNode cursor.item numBytes).1,
          (splitItems nextNode cursor.item numBytes).2 :: cursor.after, retrans, nextNode + 1⟩
      else .fatal
    else
      match cursor.after with
      | [] => .found ⟨cursor.before, cursor.item, [], retrans, nextNode⟩
      | next :: after =>
          match mergeItems retrans cursor.item next with
          | none => .fatal
          | some (retrans, merged) => .again (cursor.before ++ merged :: after) retrans nextNode
  else if Gt seq cursor.beginOfCurrentPacket then
    let size := sub32 seq cursor.beginOfCurrentPacket
    .again (cursor.before ++ (splitItems nextNode cursor.item size).1 ::
      (splitItems nextNode cursor.item size).2 :: cursor.after) retrans (nextNode + 1)
  else .fatal

/-- One call of `GetPacketFromList`. -/
def packetStep (sent : Bool) (firstByteSeq listStartFrom numBytes seq : Nat)
    (list : List TcpTxItem) (retrans nextNode : Nat) : Outcome :=
  match walk sent firstByteSeq seq [] listStartFrom list with
  | none => .fatal
  | some cursor => atCursor numBytes seq retrans nextNode cursor

/-- `GetPacketFromList`, with a bound on its calls. -/
def getPacketFromList (sent : Bool) (firstByteSeq listStartFrom numBytes seq : Nat) :
    Nat → List TcpTxItem → Nat → Nat → Option Found
  | 0, _, _, _ => none
  | fuel + 1, list, retrans, nextNode =>
      match packetStep sent firstByteSeq listStartFrom numBytes seq list retrans nextNode with
      | .found result => some result
      | .again list retrans nextNode =>
          getPacketFromList sent firstByteSeq listStartFrom numBytes seq fuel list retrans nextNode
      | .fatal => none

namespace TcpTxBuffer

def tailSequence (tx : TcpTxBuffer) : Nat := add32 tx.firstByteSeq tx.size

def available (tx : TcpTxBuffer) : Nat := sub32 tx.maxBuffer tx.size

def sizeFromSequence (tx : TcpTxBuffer) (seq : Nat) : Nat :=
  if Ge tx.tailSequence seq then sub32 tx.tailSequence seq else 0

/-- `SetHeadSequence`. -/
def setHeadSequence (tx : TcpTxBuffer) (seq : Nat) : Option TcpTxBuffer :=
  if tx.sentList = [] then some { tx with firstByteSeq := seq, highestSack := (none, 0) } else none

/-- `Add`. -/
def add (tx : TcpTxBuffer) (packet : List UInt8) : TcpTxBuffer × Bool :=
  if packet.length ≤ tx.available then
    if 0 < packet.length then
      ({ tx with
        appList := tx.appList ++ [{ node := tx.nextNode, packet := packet }]
        size := add32 tx.size packet.length
        nextNode := tx.nextNode + 1 }, true)
    else (tx, true)
  else (tx, false)

/-! ## Copying -/

/-- An item of the sent list, and the buffer. -/
structure OutItem where
  tx : TcpTxBuffer
  before : List TcpTxItem
  item : TcpTxItem
  after : List TcpTxItem

/-- `GetNewSegment`: the item moves from the application list to the sent list. -/
def getNewSegment (tx : TcpTxBuffer) (numBytes : Nat) : Option OutItem :=
  let startOfAppList := add32 tx.firstByteSeq tx.sentSize
  (getPacketFromList false tx.firstByteSeq startOfAppList numBytes startOfAppList
    (tx.appList.length + 2) tx.appList tx.retrans tx.nextNode).map fun found =>
      { tx := { tx with
          appList := found.before ++ found.after
          sentSize := add32 tx.sentSize found.item.size
          retrans := found.retrans
          nextNode := found.nextNode + 1 }
        before := tx.sentList
        item := { found.item with startSeq := startOfAppList, node := found.nextNode }
        after := [] }

/-- The bytes to retransmit, so that items with different flags are not merged. -/
def retransmitSize (numBytes seq : Nat) : List TcpTxItem → Nat
  | [] => numBytes
  | item :: items =>
      if item.startSeq = seq then
        match items with
        | [] => min numBytes item.size
        | next :: _ =>
            if next.sacked = false ∧ item.lost = next.lost then
              min numBytes (add32 item.size next.size)
            else min numBytes item.size
      else retransmitSize numBytes seq items

/-- `GetTransmittedSegment`. -/
def getTransmittedSegment (tx : TcpTxBuffer) (numBytes seq : Nat) : Option OutItem :=
  if Ge seq tx.firstByteSeq ∧ numBytes ≤ tx.sentSize ∧ tx.sentList ≠ [] then
    (getPacketFromList true tx.firstByteSeq tx.firstByteSeq
      (retransmitSize numBytes seq tx.sentList) seq (tx.sentList.length + 2) tx.sentList tx.retrans
      tx.nextNode).map fun found =>
        { tx := { tx with
            retrans :=
              if found.item.retrans then found.retrans else add32 found.retrans found.item.size
            nextNode := found.nextNode }
          before := found.before
          item := { found.item with retrans := true }
          after := found.after }
  else none

/-- The item is put in its place with the time it is sent. -/
def OutItem.send (out : OutItem) (now : Nat) : Option (TcpTxBuffer × Option TcpTxItem) :=
  if Ge out.item.startSeq out.tx.firstByteSeq then
    some ({ out.tx with sentList := out.before ++ { out.item with lastSent := now } :: out.after },
      some { out.item with lastSent := now })
  else none

/-- The body of `CopyFromSequence`, with the call it makes for a block that is partly new. -/
def copyBlock (recurse : Nat → Option (TcpTxBuffer × Option TcpTxItem)) (tx : TcpTxBuffer)
    (now numBytes seq : Nat) : Option (TcpTxBuffer × Option TcpTxItem) :=
  if Gt tx.firstByteSeq seq then none
  else
    let s := min numBytes (tx.sizeFromSequence seq)
    let endOfSent := add32 tx.firstByteSeq tx.sentSize
    if s = 0 then some (tx, none)
    else if Ge endOfSent (add32 seq s) then
      (tx.getTransmittedSegment s seq).bind fun out =>
        if out.item.sacked then none else out.send now
    else if Le endOfSent seq then
      if endOfSent = seq then
        (tx.getNewSegment s).bind fun out => if out.item.retrans then none else out.send now
      else none
    else if seq < endOfSent ∧ endOfSent < add32 seq s then recurse (sub32 endOfSent seq)
    else none

/-- `CopyFromSequence`; the call it makes for a partly new block makes no further one. -/
def copyFromSequence (tx : TcpTxBuffer) (now numBytes seq : Nat) :
    Option (TcpTxBuffer × Option TcpTxItem) :=
  tx.copyBlock (fun amount => tx.copyBlock (fun _ => none) now amount seq) now numBytes seq

theorem OutItem.send_some {out : OutItem} {now : Nat} {result : TcpTxBuffer × Option TcpTxItem}
    (hsend : out.send now = some result) :
    result =
      ({ out.tx with sentList := out.before ++ { out.item with lastSent := now } :: out.after },
        some { out.item with lastSent := now }) := by
  rw [OutItem.send] at hsend
  split at hsend
  next => exact (Option.some.inj hsend).symm
  next => cases hsend

/-- What a call of `CopyFromSequence` that returns has done. -/
theorem copyBlock_cases {recurse : Nat → Option (TcpTxBuffer × Option TcpTxItem)}
    {tx : TcpTxBuffer} {now numBytes seq : Nat} {result : TcpTxBuffer × Option TcpTxItem}
    (hcopy : tx.copyBlock recurse now numBytes seq = some result) :
    result = (tx, none) ∨
      ∃ s, 0 < s ∧ s ≤ numBytes ∧
        ((∃ out, tx.getTransmittedSegment s seq = some out ∧ out.item.sacked = false ∧
            out.send now = some result) ∨
          (∃ out, add32 tx.firstByteSeq tx.sentSize = seq ∧ tx.getNewSegment s = some out ∧
            out.item.retrans = false ∧ out.send now = some result) ∨
          (seq < add32 tx.firstByteSeq tx.sentSize ∧
            add32 tx.firstByteSeq tx.sentSize < add32 seq s ∧
            recurse (sub32 (add32 tx.firstByteSeq tx.sentSize) seq) = some result)) := by
  rw [copyBlock] at hcopy
  split at hcopy
  next => cases hcopy
  next =>
    simp only at hcopy
    generalize hs : min numBytes (tx.sizeFromSequence seq) = s at hcopy
    have hle : s ≤ numBytes := hs ▸ Nat.min_le_left _ _
    split at hcopy
    next =>
      cases hcopy
      exact Or.inl rfl
    next hne =>
      refine Or.inr ⟨s, Nat.pos_of_ne_zero hne, hle, ?_⟩
      split at hcopy
      next =>
        obtain ⟨out, hout, hsend⟩ := Option.bind_eq_some_iff.mp hcopy
        split at hsend
        next => cases hsend
        next hsacked => exact Or.inl ⟨out, hout, Bool.not_eq_true _ ▸ hsacked, hsend⟩
      next =>
        split at hcopy
        next =>
          split at hcopy
          next heq =>
            obtain ⟨out, hout, hsend⟩ := Option.bind_eq_some_iff.mp hcopy
            split at hsend
            next => cases hsend
            next hretrans =>
              exact Or.inr (Or.inl ⟨out, heq, hout, Bool.not_eq_true _ ▸ hretrans, hsend⟩)
          next => cases hcopy
        next =>
          split at hcopy
          next hstraddle => exact Or.inr (Or.inr ⟨hstraddle.1, hstraddle.2, hcopy⟩)
          next => cases hcopy

/-! ## The scoreboard -/

/-- The first item that is not sacked becomes sacked. -/
def sackFirst : List TcpTxItem → Option (List TcpTxItem × TcpTxItem)
  | [] => none
  | item :: items =>
      if item.sacked then (sackFirst items).map fun result => (item :: result.1, result.2)
      else some ({ item with sacked := true } :: items, item)

/-- `AddRenoSack`. -/
def addRenoSack (tx : TcpTxBuffer) : Option TcpTxBuffer :=
  match tx.sentList with
  | [] => none
  | head :: items =>
      if tx.sackEnabled = true ∧ items = [] then none
      else
        match sackFirst items with
        | none => some { tx with renoSack := true }
        | some (items, item) =>
            some { tx with
              renoSack := true
              sentList := head :: items
              sackedOut := add32 tx.sackedOut item.size
              highestSack := (some item.node, item.startSeq) }

/-- `MarkHeadAsLost`. -/
def markHeadAsLost (tx : TcpTxBuffer) : TcpTxBuffer :=
  match tx.sentList with
  | [] => tx
  | head :: items =>
      { tx with
        sentList := { head with sacked := false, retrans := false, lost := true } :: items
        sackedOut := if head.sacked then sub32 tx.sackedOut head.size else tx.sackedOut
        retrans := if head.retrans then sub32 tx.retrans head.size else tx.retrans
        lostOut := if head.lost then tx.lostOut else add32 tx.lostOut head.size }

/-- `ResetRenoSack`. -/
def resetRenoSack (tx : TcpTxBuffer) : TcpTxBuffer :=
  { tx with
    sackedOut := 0
    sentList := tx.sentList.map fun item => { item with sacked := false }
    highestSack := (none, 0) }

/-- `ResetSentList`. -/
def resetSentList (tx : TcpTxBuffer) : TcpTxBuffer :=
  { tx with
    appList := (tx.sentList.map fun item =>
      { item with retrans := false, sacked := false, lost := false }) ++ tx.appList
    sentList := []
    sentSize := 0
    lostOut := 0
    retrans := 0
    sackedOut := 0
    highestSack := (none, 0) }

/-- `ResetLastSegmentSent`. -/
def resetLastSegmentSent (tx : TcpTxBuffer) : TcpTxBuffer :=
  match tx.sentList.getLast? with
  | none => tx
  | some item =>
      { tx with
        sentList := tx.sentList.dropLast
        sentSize := sub32 tx.sentSize item.size
        retrans := if item.retrans then sub32 tx.retrans item.size else tx.retrans
        appList := item :: tx.appList }

/-- The count of lost bytes `SetSentListLost` makes. -/
def countLost : List TcpTxItem → Nat
  | [] => 0
  | item :: items =>
      if item.lost ∨ item.sacked = false then add32 item.size (countLost items) else countLost items

/-- `SetSentListLost`. -/
def setSentListLost (tx : TcpTxBuffer) (resetSack : Bool) : Option TcpTxBuffer :=
  let next : TcpTxBuffer :=
    if resetSack then
      { tx with
        retrans := 0
        sackedOut := 0
        lostOut := tx.sentSize
        highestSack := (none, 0)
        sentList := tx.sentList.map fun item =>
          { item with sacked := false, lost := true, retrans := false } }
    else
      { tx with
        retrans := 0
        lostOut := countLost tx.sentList
        sentList := tx.sentList.map fun item =>
          { item with lost := item.lost || !item.sacked, retrans := false } }
  if add32 next.sackedOut next.lostOut ≤ next.sentSize then some next else none

/-! ## Selective acknowledgements -/

/-- What the loops of `Update` change besides the items. -/
structure Board where
  lostOut : Nat
  sackedOut : Nat
  highestSack : Option Nat × Nat
  bytesSacked : Nat

/-- An item within a block is sacked. -/
def Board.sack (board : Board) (item : TcpTxItem) (beginOfCurrentPacket : Nat) : Board where
  lostOut := if item.lost then sub32 board.lostOut item.size else board.lostOut
  sackedOut := add32 board.sackedOut item.size
  bytesSacked := add32 board.bytesSacked item.size
  highestSack :=
    if board.highestSack.1 = none ∨
        Le board.highestSack.2 (add32 beginOfCurrentPacket item.size) then
      (some item.node, beginOfCurrentPacket)
    else board.highestSack

/-- The inner loop of `Update`. -/
def sackItems (first second : Nat) : Nat → Board → List TcpTxItem → Option (List TcpTxItem × Board)
  | _, board, [] => some ([], board)
  | beginOfCurrentPacket, board, item :: items =>
      let endOfCurrentPacket := add32 beginOfCurrentPacket item.size
      if Ge beginOfCurrentPacket first ∧ Le endOfCurrentPacket second then
        if item.sacked then
          if item.lost then none
          else
            (sackItems first second endOfCurrentPacket board items).map fun result =>
              (item :: result.1, result.2)
        else
          (sackItems first second endOfCurrentPacket (board.sack item beginOfCurrentPacket)
            items).map fun result =>
              ({ item with lost := false, sacked := true } :: result.1, result.2)
      else if Gt endOfCurrentPacket second then some (item :: items, board)
      else
        (sackItems first second endOfCurrentPacket board items).map fun result =>
          (item :: result.1, result.2)

/-- The outer loop of `Update`; the flag tells that a block is outside the sent list. -/
def sackBlocks (firstByteSeq sentSize : Nat) :
    List (UInt32 × UInt32) → Board → List TcpTxItem → Option (List TcpTxItem × Board × Bool)
  | [], board, items => some (items, board, false)
  | block :: blocks, board, items =>
      if Lt (add32 firstByteSeq sentSize) block.1.toNat then some (items, board, true)
      else
        (sackItems block.1.toNat block.2.toNat firstByteSeq board items).bind fun result =>
          sackBlocks firstByteSeq sentSize blocks result.2 result.1

/-- The loop of `UpdateLostCount`, from the highest sacked item down. -/
def markLost (dupAckThresh : Nat) :
    Nat → Nat → List TcpTxItem → List TcpTxItem × Nat × Nat
  | sacked, lostOut, [] => ([], sacked, lostOut)
  | sacked, lostOut, item :: items =>
      let sacked := if item.sacked then sacked + 1 else sacked
      if dupAckThresh ≤ sacked ∧ item.sacked = false ∧ item.lost = false then
        let result := markLost dupAckThresh sacked (add32 lostOut item.size) items
        ({ item with lost := true } :: result.1, result.2)
      else
        let result := markLost dupAckThresh sacked lostOut items
        (item :: result.1, result.2)

/-- The items behind the first one, up to a node, and those behind the node. -/
def upToNode (node : Nat) : List TcpTxItem → Option (List TcpTxItem × List TcpTxItem)
  | [] => none
  | item :: items =>
      if item.node = node then some ([item], items)
      else (upToNode node items).map fun result => (item :: result.1, result.2)

/-- The rest of `UpdateLostCount`: the first item is lost when enough items are sacked. -/
def markFirstLost (tx : TcpTxBuffer) (sacked : Nat) : TcpTxBuffer :=
  match tx.sentList with
  | [] => tx
  | head :: items =>
      if tx.dupAckThresh ≤ sacked ∧ head.lost = false then
        { tx with
          sentList := { head with lost := true } :: items
          lostOut := add32 tx.lostOut head.size }
      else tx

/-- `UpdateLostCount`; an iterator that is at the end or no longer valid cannot be read. -/
def updateLostCount (tx : TcpTxBuffer) : Option TcpTxBuffer :=
  match tx.sentList, tx.highestSack.1 with
  | head :: items, some node =>
      if head.node = node then some (tx.markFirstLost 0)
      else
        (upToNode node items).map fun parts =>
          let marked := markLost tx.dupAckThresh 0 tx.lostOut parts.1.reverse
          { tx with
            sentList := head :: (marked.1.reverse ++ parts.2)
            lostOut := marked.2.2 }.markFirstLost marked.2.1
  | _, _ => none

/-- The assertions at the end of `Update`. -/
def checked (tx : TcpTxBuffer) : Option TcpTxBuffer :=
  match tx.sentList with
  | [] => none
  | head :: _ =>
      if head.sacked = false ∧ add32 tx.sackedOut tx.lostOut ≤ tx.sentSize then some tx else none

/-- `Update`; nothing is checked when a block is outside the sent list. -/
def update (tx : TcpTxBuffer) (list : List (UInt32 × UInt32)) : Option (TcpTxBuffer × Nat) :=
  (sackBlocks tx.firstByteSeq tx.sentSize list ⟨tx.lostOut, tx.sackedOut, tx.highestSack, 0⟩
    tx.sentList).bind fun result =>
      let next : TcpTxBuffer := { tx with
        sentList := result.1
        lostOut := result.2.1.lostOut
        sackedOut := result.2.1.sackedOut
        highestSack := result.2.1.highestSack }
      if result.2.2 then some (next, result.2.1.bytesSacked)
      else
        ((if 0 < result.2.1.bytesSacked then next.updateLostCount else some next).bind checked).map
          fun next => (next, result.2.1.bytesSacked)

/-! ## Discarding -/

/-- `RemoveFromCounts`. -/
def removeFromCounts (tx : TcpTxBuffer) (item : TcpTxItem) (size : Nat) : Option TcpTxBuffer :=
  if (item.sacked = true → size ≤ tx.sackedOut) ∧ (item.retrans = true → size ≤ tx.retrans) ∧
      (item.lost = true → size ≤ tx.lostOut) then
    some { tx with
      sackedOut := if item.sacked then tx.sackedOut - size else tx.sackedOut
      retrans := if item.retrans then tx.retrans - size else tx.retrans
      lostOut := if item.lost then tx.lostOut - size else tx.lostOut }
  else none

/-- The first bytes leave the buffer. -/
def advance (tx : TcpTxBuffer) (sentList : List TcpTxItem) (size : Nat) : TcpTxBuffer :=
  { tx with
    sentList := sentList
    size := sub32 tx.size size
    sentSize := sub32 tx.sentSize size
    firstByteSeq := add32 tx.firstByteSeq size }

/-- The loop of `DiscardUpTo`, with a bound on its turns. -/
def discardLoop (now : Nat) : Nat → TcpTxBuffer → Nat → Option TcpTxBuffer
  | 0, _, _ => none
  | fuel + 1, tx, offset =>
      if tx.size = 0 ∨ offset = 0 then some tx
      else
        match tx.sentList with
        | [] =>
            (tx.copyFromSequence now offset tx.firstByteSeq).bind fun result =>
              if result.2 = none then none else discardLoop now fuel result.1 offset
        | item :: items =>
            if item.startSeq ≠ tx.firstByteSeq then none
            else if item.size ≤ offset then
              ((tx.advance items item.size).removeFromCounts item item.size).bind fun next =>
                discardLoop now fuel next (offset - item.size)
            else
              (tx.advance
                ({ item with
                  packet := item.packet.drop offset
                  startSeq := add32 item.startSeq offset } :: items) offset).removeFromCounts item
                offset

/-- A sacked head gives its flag to another item. -/
def moveHeadSack (tx : TcpTxBuffer) (seq : Nat) : Option TcpTxBuffer :=
  match tx.sentList with
  | [] => some tx
  | head :: items =>
      if head.startSeq ≠ seq then none
      else if head.sacked then
        if head.lost then none
        else
          { tx with
            sentList := { head with sacked := false } :: items
            sackedOut := sub32 tx.sackedOut head.size }.addRenoSack.map markHeadAsLost
      else some tx

/-- The end of `DiscardUpTo`. -/
def settle (tx : TcpTxBuffer) (seq : Nat) : Option TcpTxBuffer :=
  let next : TcpTxBuffer :=
    if Le tx.highestSack.2 tx.firstByteSeq then { tx with highestSack := (none, 0) } else tx
  if Ge next.firstByteSeq seq ∧ add32 next.sackedOut next.lostOut ≤ next.sentSize then some next
  else none

/-- `DiscardUpTo`. -/
def discardUpTo (tx : TcpTxBuffer) (now seq : Nat) : Option TcpTxBuffer :=
  if Ge tx.firstByteSeq seq then some tx
  else
    (discardLoop now (2 * tx.size + 2) tx (sub32 seq tx.firstByteSeq)).bind fun next =>
      let next : TcpTxBuffer := if next.size = 0 then { next with firstByteSeq := seq } else next
      (next.moveHeadSack seq).bind fun next => next.settle seq

/-! ## Counting what is in flight -/

/-- `BytesInFlight`. -/
def bytesInFlight (tx : TcpTxBuffer) : Option Nat :=
  if add32 tx.sackedOut tx.lostOut ≤ tx.sentSize then
    some (add32 (sub32 tx.sentSize (add32 tx.sackedOut tx.lostOut)) tx.retrans)
  else none

end TcpTxBuffer

/-! ## Runs -/

/-- The operations of the buffer. -/
inductive TcpOp
  | setHeadSequence (seq : UInt32)
  | add (packet : List UInt8)
  | copyFromSequence (now : Nat) (numBytes seq : UInt32)
  | discardUpTo (now : Nat) (seq : UInt32)
  | update (list : List (UInt32 × UInt32))
  | addRenoSack
  | resetRenoSack
  | setSentListLost (resetSack : Bool)
  | resetSentList
  | resetLastSegmentSent
  | markHeadAsLost

/-- A buffer with the bytes it accepted and the number of those acknowledged. -/
structure Streaming where
  tx : TcpTxBuffer
  accepted : List UInt8
  acked : Nat

namespace Streaming

/-- The accepted bytes without the acknowledged ones. -/
def remaining (streaming : Streaming) : List UInt8 := streaming.accepted.drop streaming.acked

def step (streaming : Streaming) : TcpOp → Option Streaming
  | .setHeadSequence seq =>
      (streaming.tx.setHeadSequence seq.toNat).map fun tx => { streaming with tx := tx }
  | .add packet =>
      let result := streaming.tx.add packet
      some
        { streaming with
          tx := result.1
          accepted := if result.2 then streaming.accepted ++ packet else streaming.accepted }
  | .copyFromSequence now numBytes seq =>
      (streaming.tx.copyFromSequence now numBytes.toNat seq.toNat).map fun result =>
        { streaming with tx := result.1 }
  | .discardUpTo now seq =>
      (streaming.tx.discardUpTo now seq.toNat).map fun tx =>
        { streaming with
          tx := tx
          acked :=
            if Gt seq.toNat streaming.tx.firstByteSeq then
              min streaming.accepted.length
                (streaming.acked + sub32 seq.toNat streaming.tx.firstByteSeq)
            else streaming.acked }
  | .update list =>
      (streaming.tx.update list).map fun result => { streaming with tx := result.1 }
  | .addRenoSack => streaming.tx.addRenoSack.map fun tx => { streaming with tx := tx }
  | .resetRenoSack => some { streaming with tx := streaming.tx.resetRenoSack }
  | .setSentListLost resetSack =>
      (streaming.tx.setSentListLost resetSack).map fun tx => { streaming with tx := tx }
  | .resetSentList => some { streaming with tx := streaming.tx.resetSentList }
  | .resetLastSegmentSent => some { streaming with tx := streaming.tx.resetLastSegmentSent }
  | .markHeadAsLost => some { streaming with tx := streaming.tx.markHeadAsLost }

def run : Streaming → List TcpOp → Option Streaming := Foundation.Runs.runFrom step

/-- A new buffer. -/
def start (firstByteSeq maxBuffer dupAckThresh : UInt32) (sackEnabled : Bool) : Streaming where
  tx :=
    { firstByteSeq := firstByteSeq.toNat
      maxBuffer := maxBuffer.toNat
      dupAckThresh := dupAckThresh.toNat
      sackEnabled := sackEnabled }
  accepted := []
  acked := 0

end Streaming

end DeepcV2x.Tcp

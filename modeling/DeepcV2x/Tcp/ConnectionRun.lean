import DeepcV2x.Tcp.Connection
import DeepcV2x.Tcp.RxRun
import DeepcV2x.Tcp.TxStream

/-!
# The bytes of a connection arrive

In every run whose segments keep to the window of the peer, the bytes that were
read are a beginning of the bytes that were sent, and the sender keeps every
byte that the peer has not received, whatever happens to the segments on their
way.
-/

namespace DeepcV2x.Tcp

open SequenceNumber32 Foundation Foundation.Slices

/-! ## The first byte of the sender -/

namespace TcpTxBuffer

variable {tx next : TcpTxBuffer}

theorem add_firstByteSeq (tx : TcpTxBuffer) (packet : List UInt8) :
    (tx.add packet).1.firstByteSeq = tx.firstByteSeq := by
  unfold add
  split
  · split <;> rfl
  · rfl

theorem addRenoSack_firstByteSeq (hadd : tx.addRenoSack = some next) :
    next.firstByteSeq = tx.firstByteSeq := by
  unfold addRenoSack at hadd
  split at hadd
  · cases hadd
  · split at hadd
    · cases hadd
    · split at hadd <;> cases hadd <;> rfl

theorem markHeadAsLost_firstByteSeq (tx : TcpTxBuffer) :
    tx.markHeadAsLost.firstByteSeq = tx.firstByteSeq := by
  unfold markHeadAsLost
  split <;> rfl

theorem setSentListLost_firstByteSeq {resetSack : Bool}
    (hset : tx.setSentListLost resetSack = some next) : next.firstByteSeq = tx.firstByteSeq := by
  cases resetSack with
  | true =>
      rw [setSentListLost, if_pos rfl] at hset
      split at hset
      · cases hset
        rfl
      · cases hset
  | false =>
      rw [setSentListLost, if_neg Bool.false_ne_true] at hset
      split at hset
      · cases hset
        rfl
      · cases hset

theorem resetLastSegmentSent_firstByteSeq (tx : TcpTxBuffer) :
    tx.resetLastSegmentSent.firstByteSeq = tx.firstByteSeq := by
  unfold resetLastSegmentSent
  split <;> rfl

theorem markFirstLost_firstByteSeq (tx : TcpTxBuffer) (sacked : Nat) :
    (tx.markFirstLost sacked).firstByteSeq = tx.firstByteSeq := by
  unfold markFirstLost
  repeat' split
  all_goals rfl

theorem updateLostCount_firstByteSeq (hupdate : tx.updateLostCount = some next) :
    next.firstByteSeq = tx.firstByteSeq := by
  rw [updateLostCount.eq_def] at hupdate
  split at hupdate
  · split at hupdate
    · cases hupdate
      exact markFirstLost_firstByteSeq tx 0
    · obtain ⟨parts, -, rfl⟩ := Option.map_eq_some_iff.mp hupdate
      exact markFirstLost_firstByteSeq _ _
  · cases hupdate

theorem checked_eq (hchecked : checked tx = some next) : next = tx := by
  rw [checked.eq_def] at hchecked
  split at hchecked
  · cases hchecked
  · split at hchecked
    · exact (Option.some.inj hchecked).symm
    · cases hchecked

theorem update_firstByteSeq {list : List (UInt32 × UInt32)} {result : TcpTxBuffer × Nat}
    (hupdate : tx.update list = some result) : result.1.firstByteSeq = tx.firstByteSeq := by
  obtain ⟨sacked, -, hrest⟩ := Option.bind_eq_some_iff.mp hupdate
  dsimp only at hrest
  split at hrest
  · cases hrest
    rfl
  · obtain ⟨last, hlast, rfl⟩ := Option.map_eq_some_iff.mp hrest
    obtain ⟨counted, hcounted, hchecked⟩ := Option.bind_eq_some_iff.mp hlast
    obtain rfl := checked_eq hchecked
    split at hcounted
    · have hfirst := updateLostCount_firstByteSeq hcounted
      exact hfirst
    · cases hcounted
      rfl

theorem moveHeadSack_firstByteSeq {seq : Nat} (hmove : tx.moveHeadSack seq = some next) :
    next.firstByteSeq = tx.firstByteSeq := by
  unfold moveHeadSack at hmove
  split at hmove
  · cases hmove
    rfl
  · split at hmove
    · cases hmove
    · split at hmove
      · split at hmove
        · cases hmove
        · obtain ⟨added, hadded, rfl⟩ := Option.map_eq_some_iff.mp hmove
          have hfirst := addRenoSack_firstByteSeq hadded
          exact (markHeadAsLost_firstByteSeq added).trans hfirst
      · cases hmove
        rfl

theorem settle_firstByteSeq {seq : Nat} (hsettle : tx.settle seq = some next) :
    next.firstByteSeq = tx.firstByteSeq := by
  have hreset : (if Le tx.highestSack.2 tx.firstByteSeq then
      { tx with highestSack := (none, 0) } else tx).firstByteSeq = tx.firstByteSeq := by
    split <;> rfl
  rw [settle] at hsettle
  generalize (if Le tx.highestSack.2 tx.firstByteSeq then
      { tx with highestSack := (none, 0) } else tx) = reset at hreset hsettle
  split at hsettle
  · cases hsettle
    exact hreset
  · cases hsettle

/-- An acknowledgement within the stream moves the first byte to its number. -/
theorem discardUpTo_firstByteSeq {remaining : List UInt8} (holds : Stream tx remaining)
    {now seq : Nat} (hseq : seq < 4294967296) (hgt : Gt seq tx.firstByteSeq)
    (hle : sub32 seq tx.firstByteSeq ≤ remaining.length)
    (hdiscard : tx.discardUpTo now seq = some next) : next.firstByteSeq = seq := by
  have hfirst := holds.firstByteSeq
  have hbehind : ¬ Ge tx.firstByteSeq seq := by
    simp only [Ge, Gt] at hgt ⊢
    omega
  have hoffset : sub32 seq tx.firstByteSeq < 4294967296 := Nat.mod_lt _ (by decide)
  rw [discardUpTo, if_neg hbehind] at hdiscard
  obtain ⟨looped, hlooped, hrest⟩ := Option.bind_eq_some_iff.mp hdiscard
  obtain ⟨moved, hmoved, hsettled⟩ := Option.bind_eq_some_iff.mp hrest
  have hplace := (Stream.discardLoop _ holds hoffset hlooped).2
  have hsame : add32 tx.firstByteSeq (sub32 seq tx.firstByteSeq) = seq := by
    rw [add32, sub32]
    omega
  rw [Nat.min_eq_left hle, hsame] at hplace
  rw [settle_firstByteSeq hsettled, moveHeadSack_firstByteSeq hmoved]
  split
  · rfl
  · exact hplace

end TcpTxBuffer

/-- The flags of the items and the place of the sent bytes are the buffer's own matter. -/
theorem step_marks {sender next : Streaming} {op : TcpOp} (hmarks : Marks op)
    (hstep : sender.step op = some next) :
    next.tx.firstByteSeq = sender.tx.firstByteSeq ∧ next.accepted = sender.accepted ∧
      next.acked = sender.acked := by
  cases op with
  | addRenoSack =>
      obtain ⟨tx, htx, rfl⟩ := Option.map_eq_some_iff.mp hstep
      exact ⟨TcpTxBuffer.addRenoSack_firstByteSeq htx, rfl, rfl⟩
  | resetRenoSack =>
      cases hstep
      exact ⟨rfl, rfl, rfl⟩
  | setSentListLost resetSack =>
      obtain ⟨tx, htx, rfl⟩ := Option.map_eq_some_iff.mp hstep
      exact ⟨TcpTxBuffer.setSentListLost_firstByteSeq htx, rfl, rfl⟩
  | resetSentList =>
      cases hstep
      exact ⟨rfl, rfl, rfl⟩
  | resetLastSegmentSent =>
      cases hstep
      exact ⟨TcpTxBuffer.resetLastSegmentSent_firstByteSeq _, rfl, rfl⟩
  | markHeadAsLost =>
      cases hstep
      exact ⟨TcpTxBuffer.markHeadAsLost_firstByteSeq _, rfl, rfl⟩
  | setHeadSequence | add | copyFromSequence | discardUpTo | update => exact hmarks.elim

/-! ## The receiver while the stream grows -/

/-- What is available grows by the blocks that are passed. -/
theorem advance_availBytes {blocks : List RxBlock} : ∀ {advanced result : Advanced},
    advance advanced blocks = some result → advanced.availBytes < 4294967296 →
    ∃ passed, passed ≤ totalSize blocks ∧
      result.availBytes = add32 advanced.availBytes passed := by
  induction blocks with
  | nil =>
      intro advanced result hadvance hword
      obtain rfl := Option.some.inj hadvance
      exact ⟨0, Nat.le_refl _, (add32_zero hword).symm⟩
  | cons block blocks ih =>
      intro advanced result hadvance hword
      rw [advance] at hadvance
      split at hadvance
      · obtain ⟨passed, hle, havail⟩ := ih hadvance hword
        exact ⟨passed, hle.trans (Nat.le_add_left _ _), havail⟩
      · split at hadvance
        · obtain rfl := Option.some.inj hadvance
          exact ⟨0, Nat.zero_le _, (add32_zero hword).symm⟩
        · obtain ⟨sackList, -, hrest⟩ := Option.bind_eq_some_iff.mp hadvance
          obtain ⟨passed, hle, havail⟩ := ih hrest (Nat.mod_lt _ (by decide))
          refine ⟨block.2.length + passed, Nat.add_le_add_left hle _, ?_⟩
          rw [havail, add32_add32]

theorem settleFin_fields (rx : TcpRxBuffer) :
    rx.settleFin.availBytes = rx.availBytes ∧ rx.settleFin.data = rx.data ∧
      rx.settleFin.gotFin = rx.gotFin ∧ rx.settleFin.maxBuffer = rx.maxBuffer := by
  unfold TcpRxBuffer.settleFin TcpRxBuffer.countFin
  repeat' split
  all_goals exact ⟨rfl, rfl, rfl, rfl⟩

/-- What a segment that is added leaves and adds. -/
theorem add_fields {rx : TcpRxBuffer} {p : List UInt8} {seq : Nat} {result : TcpRxBuffer × Bool}
    (hadd : rx.add p seq = some result) (hword : rx.availBytes < 4294967296) :
    result.1.gotFin = rx.gotFin ∧ result.1.maxBuffer = rx.maxBuffer ∧
      ∃ passed, passed ≤ totalSize result.1.data ∧
        result.1.availBytes = add32 rx.availBytes passed := by
  unfold TcpRxBuffer.add at hadd
  dsimp only at hadd
  split at hadd
  · obtain rfl := Option.some.inj hadd
    exact ⟨rfl, rfl, 0, Nat.zero_le _, (add32_zero hword).symm⟩
  · split at hadd
    · obtain ⟨next, hstore, rfl⟩ := Option.map_eq_some_iff.mp hadd
      unfold TcpRxBuffer.store at hstore
      split at hstore
      · cases hstore
      · obtain ⟨sackList, -, hrest⟩ := Option.bind_eq_some_iff.mp hstore
        obtain ⟨advanced, hadvance, rfl⟩ := Option.map_eq_some_iff.mp hrest
        obtain ⟨passed, hle, hpassed⟩ := advance_availBytes hadvance hword
        refine ⟨(settleFin_fields _).2.2.1, (settleFin_fields _).2.2.2, passed, ?_, ?_⟩
        · rw [(settleFin_fields _).2.1]
          exact hle
        · exact (settleFin_fields _).1.trans hpassed
    · cases hadd

theorem totalSize_map_atSequence (first : Nat) (blocks : List RxBlock) :
    totalSize (blocks.map (atSequence first)) = totalSize blocks := by
  induction blocks with
  | nil => rfl
  | cons block blocks ih => rw [List.map_cons, totalSize_cons, totalSize_cons, ih]; rfl

theorem Apart.extend {stream : List UInt8} {low high : Nat} {blocks : List RxBlock}
    (holds : Apart stream low high blocks) (more : List UInt8) :
    Apart (stream ++ more) low high blocks :=
  { holds with slices := fun block hmem => (holds.slices block hmem).extend more }

theorem taken_fields {rx : TcpRxBuffer} {took : Option (List UInt8 × List RxBlock)}
    {size availBytes : Nat} {result : TcpRxBuffer × Option (List UInt8)}
    (htook : took.map (fun taken =>
      (({ rx with data := taken.2, size := size, availBytes := availBytes } : TcpRxBuffer),
        some taken.1)) = some result) :
    result.1.gotFin = rx.gotFin ∧ result.1.maxBuffer = rx.maxBuffer ∧
      result.1.nextRxSeq = rx.nextRxSeq := by
  obtain ⟨taken, -, rfl⟩ := Option.map_eq_some_iff.mp htook
  exact ⟨rfl, rfl, rfl⟩

theorem extract_fields {rx : TcpRxBuffer} {maxSize : Nat}
    {result : TcpRxBuffer × Option (List UInt8)} (hextract : rx.extract maxSize = some result) :
    result.1.gotFin = rx.gotFin ∧ result.1.maxBuffer = rx.maxBuffer ∧
      result.1.nextRxSeq = rx.nextRxSeq := by
  rw [TcpRxBuffer.extract] at hextract
  split at hextract
  · obtain rfl := Option.some.inj hextract
    exact ⟨rfl, rfl, rfl⟩
  · exact taken_fields hextract

namespace Receiving

variable {first : Nat} {stream : List UInt8} {receiving : Receiving} {front back : List RxBlock}

theorem next_of_open (hopen : receiving.buffer.gotFin = false) :
    receiving.next stream = receiving.missing := by
  simp only [Receiving.next, hopen, Bool.false_eq_true, false_and, if_false, Nat.add_zero]

/-- What was received of a stream was received of a longer one. -/
theorem Holds.extend (holds : Holds first stream receiving front back)
    (hopen : receiving.buffer.gotFin = false) (more : List UInt8) :
    Holds first (stream ++ more) receiving front back := by
  have hnext : receiving.next (stream ++ more) = receiving.next stream :=
    (next_of_open hopen).trans (next_of_open hopen).symm
  have hextracted : receiving.extracted.length ≤ stream.length :=
    (Nat.le_add_right _ _).trans holds.inside
  exact { holds with
    extracted := by
      rw [List.take_append_of_le_length hextracted]
      exact holds.extracted
    inside := by
      rw [List.length_append]
      exact holds.inside.trans (Nat.le_add_right _ _)
    available := holds.available.extend more
    behind := holds.behind.extend more
    nextRxSeq := hnext ▸ holds.nextRxSeq
    finSeq := fun hfin => by rw [hopen] at hfin; cases hfin }

/-- A segment that ends within the window behind the first missing place fits. -/
theorem Holds.fits (holds : Holds first stream receiving front back)
    (hopen : receiving.buffer.gotFin = false) {start length : Nat}
    (hinside : start + length ≤ stream.length)
    (hwindow : start + length ≤ receiving.missing + receiving.buffer.maxBuffer)
    (hshort : stream.length + receiving.buffer.maxBuffer < 2147483648) :
    receiving.Fits first stream (.segment start length) := by
  have hmissing := holds.inside
  rw [Fits, next_of_open hopen]
  refine ⟨hinside, by omega, by omega, fun _ => hwindow, fun place hplace => ?_,
    fun _ _ => Or.inr (Or.inl hwindow)⟩
  rw [holds.firstPlace] at hplace
  obtain ⟨block, hhead, rfl⟩ := Option.map_eq_some_iff.mp hplace
  have hblock := List.mem_of_head? hhead
  have hbound := (holds.blocks.slices block hblock).bound
  omega

/-- A segment that is added leaves what was received. -/
theorem Holds.missing_le (holds : Holds first stream receiving front back)
    {p : List UInt8} {seq : Nat} {result : TcpRxBuffer × Bool}
    (hadd : receiving.buffer.add p seq = some result) {front' back' : List RxBlock}
    (hnext : Holds first stream { receiving with buffer := result.1 } front' back') :
    receiving.missing ≤ Receiving.missing { receiving with buffer := result.1 } := by
  have hreach := holds.reach
  have hword := holds.word
  obtain ⟨-, hmax, passed, hpassed, havail⟩ := add_fields hadd (by omega)
  have hdata : result.1.data = (front' ++ back').map (atSequence first) := hnext.data
  have htotal : result.1.size = totalSize (front' ++ back') := hnext.size
  have hsize : result.1.size ≤ result.1.maxBuffer := hnext.size_le
  rw [hdata, totalSize_map_atSequence, ← htotal] at hpassed
  have hsum : add32 receiving.buffer.availBytes passed = receiving.buffer.availBytes + passed :=
    Nat.mod_eq_of_lt (by omega)
  change receiving.extracted.length + receiving.buffer.availBytes ≤
    receiving.extracted.length + result.1.availBytes
  rw [havail, hsum]
  omega

end Receiving

/-! ## The invariant -/

namespace TcpConnection

/-- The sender and the receiver agree on the stream. -/
structure Agrees (first window : Nat) (connection : TcpConnection) : Prop where
  word : first < 4294967296
  sender : connection.sender.Holds
  firstByteSeq : connection.sender.tx.firstByteSeq = add32 first connection.sender.acked
  receiver : ∃ front back,
    connection.receiver.Holds first connection.sender.accepted front back
  isOpen : connection.receiver.buffer.gotFin = false
  maxBuffer : connection.receiver.buffer.maxBuffer = window
  acked : connection.sender.acked ≤ connection.receiver.missing
  short : connection.sender.accepted.length + window < 2147483648

/-- Data are bytes of the stream within the window, and acknowledgements are of received bytes. -/
def Genuine (first window : Nat) (connection : TcpConnection) : TcpSegment → Prop
  | .data seq payload => ∃ start, seq.toNat = add32 first start ∧
      payload = (connection.sender.accepted.drop start).take payload.length ∧
      start + payload.length ≤ connection.sender.accepted.length ∧
      start + payload.length ≤ connection.receiver.missing + window
  | .ack ackNumber _ => ∃ place, ackNumber.toNat = add32 first place ∧
      place ≤ connection.receiver.missing

/-- What no event takes back. -/
structure Later (before after : TcpConnection) : Prop where
  accepted : before.sender.accepted <+: after.sender.accepted
  missing : before.receiver.missing ≤ after.receiver.missing

theorem Genuine.later {first window : Nat} {before after : TcpConnection} {segment : TcpSegment}
    (genuine : Genuine first window before segment) (later : Later before after) :
    Genuine first window after segment := by
  cases segment with
  | data seq payload =>
      obtain ⟨start, hseq, hpayload, hinside, hwindow⟩ := genuine
      obtain ⟨more, hmore⟩ := later.accepted
      have hlength := congrArg List.length hmore
      rw [List.length_append] at hlength
      have hmissing := later.missing
      refine ⟨start, hseq, ?_, by omega, by omega⟩
      rw [← hmore, List.drop_append_of_le_length (by omega),
        List.take_append_of_le_length (by rw [List.length_drop]; omega)]
      exact hpayload
  | ack ackNumber sackList =>
      obtain ⟨place, hnumber, hplace⟩ := genuine
      exact ⟨place, hnumber, hplace.trans later.missing⟩

namespace Agrees

variable {first window : Nat} {connection next : TcpConnection}

/-- The sender changes its flags. -/
theorem ofSender (agrees : Agrees first window connection) {sender : Streaming}
    (holds : sender.Holds) (hfirst : sender.tx.firstByteSeq = connection.sender.tx.firstByteSeq)
    (haccepted : sender.accepted = connection.sender.accepted)
    (hacked : sender.acked = connection.sender.acked) (highTxMark : Nat) :
    Agrees first window
        { connection with sender := sender, highTxMark := highTxMark } ∧
      Later connection { connection with sender := sender, highTxMark := highTxMark } := by
  refine ⟨?_, ⟨haccepted ▸ List.prefix_rfl, Nat.le_refl _⟩⟩
  exact { agrees with
    sender := holds
    firstByteSeq := by rw [hfirst, agrees.firstByteSeq, hacked]
    receiver := by rw [haccepted]; exact agrees.receiver
    acked := by rw [hacked]; exact agrees.acked
    short := by rw [haccepted]; exact agrees.short }

theorem mark (agrees : Agrees first window connection) {op : TcpOp} (hmarks : Marks op)
    (happly : connection.apply op = some next) :
    Agrees first window next ∧ Later connection next := by
  obtain ⟨sender, hstep, rfl⟩ := Option.map_eq_some_iff.mp happly
  obtain ⟨hfirst, haccepted, hacked⟩ := step_marks hmarks hstep
  exact agrees.ofSender (Streaming.step_holds agrees.sender hstep) hfirst haccepted hacked _

theorem readOptions (agrees : Agrees first window connection)
    {sackList : List (UInt32 × UInt32)} (hread : connection.readOptions sackList = some next) :
    (Agrees first window next ∧ Later connection next) ∧
      next.sender.tx.firstByteSeq = connection.sender.tx.firstByteSeq ∧
      next.receiver = connection.receiver ∧ next.sender.accepted = connection.sender.accepted ∧
      next.sender.acked = connection.sender.acked := by
  unfold TcpConnection.readOptions at hread
  split at hread
  · obtain rfl := Option.some.inj hread
    exact ⟨⟨agrees, List.prefix_refl _, Nat.le_refl _⟩, rfl, rfl, rfl, rfl⟩
  · obtain ⟨sender, hstep, rfl⟩ := Option.map_eq_some_iff.mp hread
    have hholds := Streaming.step_holds agrees.sender hstep
    obtain ⟨result, hupdate, rfl⟩ := Option.map_eq_some_iff.mp hstep
    have hfirst := TcpTxBuffer.update_firstByteSeq hupdate
    exact ⟨agrees.ofSender hholds hfirst rfl rfl _, hfirst, rfl, rfl, rfl⟩

/-- More bytes are accepted while the stream stays short. -/
theorem send (agrees : Agrees first window connection) {packet : List UInt8}
    (hshort : connection.sender.accepted.length + packet.length + window < 2147483648)
    (happly : connection.apply (.add packet) = some next) :
    Agrees first window next ∧ Later connection next := by
  obtain ⟨sender, hstep, rfl⟩ := Option.map_eq_some_iff.mp happly
  have hholds := Streaming.step_holds agrees.sender hstep
  obtain rfl := Option.some.inj hstep
  have hfirst := TcpTxBuffer.add_firstByteSeq connection.sender.tx packet
  by_cases hroom : (connection.sender.tx.add packet).2 = true
  · simp only [if_pos hroom] at hholds ⊢
    obtain ⟨front, back, holds⟩ := agrees.receiver
    refine ⟨?_, List.prefix_append _ _, Nat.le_refl _⟩
    exact { agrees with
      sender := hholds
      firstByteSeq := hfirst.trans agrees.firstByteSeq
      receiver := ⟨front, back, holds.extend agrees.isOpen packet⟩
      short := by
        rw [List.length_append]
        exact hshort }
  · simp only [if_neg hroom] at hholds ⊢
    exact agrees.ofSender hholds hfirst rfl rfl _

/-- The payload of a data segment is the bytes of the stream at its number. -/
theorem sendDataPacket (agrees : Agrees first window connection) {seq maxSize : UInt32}
    (hwindow : sub32 seq.toNat connection.sender.tx.firstByteSeq + maxSize.toNat ≤ window)
    {result : TcpConnection × List TcpSegment}
    (hsend : connection.sendDataPacket seq maxSize = some result) :
    (Agrees first window result.1 ∧ Later connection result.1) ∧
      ∀ segment ∈ result.2, Genuine first window result.1 segment := by
  obtain ⟨⟨tx, out⟩, hcopy, hrest⟩ := Option.bind_eq_some_iff.mp hsend
  obtain ⟨item, rfl, rfl⟩ := Option.map_eq_some_iff.mp hrest
  obtain ⟨hacked, hstream⟩ := agrees.sender
  obtain ⟨hnext, hfirst, hcarries⟩ :=
    hstream.copyFromSequence maxSize.toNat_lt seq.toNat_lt tx _ hcopy
  obtain ⟨-, -, hsize, offset, hseq, hinside, hpacket⟩ := hcarries item rfl
  have hholds : Streaming.Holds { connection.sender with tx := tx } := ⟨hacked, hnext⟩
  refine ⟨agrees.ofSender hholds hfirst rfl rfl _, fun segment hmem => ?_⟩
  obtain rfl := List.mem_singleton.mp hmem
  rw [Streaming.remaining, List.length_drop] at hinside
  have hshort := agrees.short
  -- the window is measured from the first unacknowledged byte, as the offset in the buffer is
  have hoffset : sub32 seq.toNat connection.sender.tx.firstByteSeq = offset := by
    have hword := hstream.firstByteSeq
    rw [hseq, add32, sub32]
    omega
  have hreceived := agrees.acked
  refine ⟨connection.sender.acked + offset, ?_, ?_, ?_, ?_⟩
  · rw [hseq, agrees.firstByteSeq, add32_add32]
  · rw [Streaming.remaining, List.drop_drop] at hpacket
    exact hpacket
  · change connection.sender.acked + offset + item.size ≤ connection.sender.accepted.length
    omega
  · change connection.sender.acked + offset + item.size ≤
      connection.receiver.missing + window
    omega

theorem sendEmptyPacket (agrees : Agrees first window connection) (allowedSackBlocks : Nat) :
    Genuine first window connection (connection.sendEmptyPacket allowedSackBlocks) := by
  obtain ⟨front, back, holds⟩ := agrees.receiver
  have hnumber : connection.receiver.buffer.nextRxSeq =
      add32 first connection.receiver.missing := by
    rw [holds.nextRxSeq, Receiving.next_of_open agrees.isOpen]
  refine ⟨connection.receiver.missing, ?_, Nat.le_refl _⟩
  rw [hnumber]
  exact UInt32.toNat_ofNat_of_lt (Nat.mod_lt _ (by decide))

theorem recv (agrees : Agrees first window connection) {maxSize : Nat}
    (hrecv : connection.recv maxSize = some next) :
    Agrees first window next ∧ Later connection next := by
  obtain ⟨extracted, hextract, rfl⟩ := Option.map_eq_some_iff.mp hrecv
  obtain ⟨front, back, holds⟩ := agrees.receiver
  obtain ⟨hgot, hmax, hnumber⟩ := extract_fields hextract
  have hopen : extracted.1.gotFin = false := hgot.trans agrees.isOpen
  obtain ⟨receiver, front', back', hstep, hholds⟩ := holds.extract maxSize
  rw [Receiving.step, hextract, Option.map_some] at hstep
  obtain rfl := Option.some.inj hstep
  -- bytes move from the buffer to the application, so the first missing place stays
  have hsame : Receiving.missing
      ⟨extracted.1, connection.receiver.extracted ++ extracted.2.getD []⟩ =
        connection.receiver.missing := by
    have hbefore := holds.inside
    have hafter := hholds.inside
    have hshort := agrees.short
    have hplace := hholds.nextRxSeq
    rw [Receiving.next_of_open hopen] at hplace
    have hold := holds.nextRxSeq
    rw [Receiving.next_of_open agrees.isOpen, ← hnumber] at hold
    exact (add32_inj first (by omega) (by omega)).mp (hplace.symm.trans hold)
  refine ⟨?_, List.prefix_refl _, hsame.ge⟩
  exact { agrees with
    receiver := ⟨front', back', hholds⟩
    isOpen := hopen
    maxBuffer := hmax.trans agrees.maxBuffer
    acked := agrees.acked.trans hsame.ge }

/-- The receiver asserts nothing about genuine data. -/
theorem stores (agrees : Agrees first window connection) {seq : UInt32} {payload : List UInt8}
    (genuine : Genuine first window connection (.data seq payload)) :
    ∃ added front back, connection.receiver.buffer.add payload seq.toNat = some added ∧
      Receiving.Holds first connection.sender.accepted
        { connection.receiver with buffer := added.1 } front back ∧
      connection.receiver.missing ≤
        Receiving.missing { connection.receiver with buffer := added.1 } ∧
      added.1.gotFin = connection.receiver.buffer.gotFin ∧
      added.1.maxBuffer = connection.receiver.buffer.maxBuffer := by
  obtain ⟨start, hseq, hpayload, hinside, hwindow⟩ := genuine
  obtain ⟨front, back, holds⟩ := agrees.receiver
  have hshort := agrees.short
  rw [← agrees.maxBuffer] at hwindow hshort
  obtain ⟨receiver, front', back', hstep, hholds, -⟩ :=
    holds.segment (holds.fits agrees.isOpen hinside hwindow hshort)
  rw [Receiving.step, ← hpayload, ← hseq] at hstep
  obtain ⟨added, hadd, rfl⟩ := Option.map_eq_some_iff.mp hstep
  have hword := holds.word
  have hreach := holds.reach
  obtain ⟨hgot, hmax, -⟩ := add_fields hadd (by omega)
  exact ⟨added, front', back', hadd, hholds, holds.missing_le hadd hholds, hgot, hmax⟩

/-- Genuine data are stored or were received before. -/
theorem receivedData (agrees : Agrees first window connection) {seq : UInt32}
    {payload : List UInt8} (genuine : Genuine first window connection (.data seq payload))
    (hreceived : connection.receivedData seq payload = some next) :
    Agrees first window next ∧ Later connection next := by
  unfold TcpConnection.receivedData at hreceived
  split at hreceived
  · obtain rfl := Option.some.inj hreceived
    exact ⟨agrees, List.prefix_refl _, Nat.le_refl _⟩
  · obtain ⟨added, front, back, hadd, hholds, hmissing, hgot, hmax⟩ := agrees.stores genuine
    rw [hadd, Option.map_some] at hreceived
    obtain rfl := Option.some.inj hreceived
    refine ⟨?_, List.prefix_refl _, hmissing⟩
    exact { agrees with
      receiver := ⟨front, back, hholds⟩
      isOpen := hgot.trans agrees.isOpen
      maxBuffer := hmax.trans agrees.maxBuffer
      acked := agrees.acked.trans hmissing }

theorem receivedData_isSome (agrees : Agrees first window connection) {seq : UInt32}
    {payload : List UInt8} (genuine : Genuine first window connection (.data seq payload)) :
    (connection.receivedData seq payload).isSome = true := by
  unfold TcpConnection.receivedData
  split
  · rfl
  · obtain ⟨added, -, -, hadd, -⟩ := agrees.stores genuine
    rw [hadd]
    rfl

/-- Only received bytes are discarded. -/
theorem receivedAck (agrees : Agrees first window connection) {ackNumber : UInt32}
    {sackList : List (UInt32 × UInt32)}
    (genuine : Genuine first window connection (.ack ackNumber sackList))
    (hreceived : connection.receivedAck ackNumber sackList = some next) :
    Agrees first window next ∧ Later connection next := by
  unfold TcpConnection.receivedAck at hreceived
  split at hreceived
  · obtain rfl := Option.some.inj hreceived
    exact ⟨agrees, List.prefix_refl _, Nat.le_refl _⟩
  next hrange =>
    obtain ⟨read, hread, happly⟩ := Option.bind_eq_some_iff.mp hreceived
    obtain ⟨⟨hagrees, hlater⟩, hfirst, hreceiver, haccepted, hacked⟩ := agrees.readOptions hread
    obtain ⟨sender, hstep, rfl⟩ := Option.map_eq_some_iff.mp happly
    have hholds := Streaming.step_holds hagrees.sender hstep
    obtain ⟨place, hnumber, hplace⟩ := genuine
    obtain ⟨front, back, holds⟩ := hagrees.receiver
    have hinside := holds.inside
    have hshort := hagrees.short
    have hbefore := hagrees.acked
    rw [← hreceiver] at hplace
    have hstart := hagrees.firstByteSeq
    -- the number is not before the first byte, so its place is not before what was discarded
    have hnotBefore : read.sender.acked ≤ place := by
      refine Nat.le_of_not_lt fun hlt => hrange (Or.inl ?_)
      rw [hnumber, ← hfirst, hstart]
      exact (lt_add32_iff first (by omega) (by omega)).mpr hlt
    have hdistance : sub32 ackNumber.toNat read.sender.tx.firstByteSeq =
        place - read.sender.acked := by
      rw [hnumber, hstart]
      exact sub32_add32 first hnotBefore (by omega)
    obtain ⟨tx, hdiscard, rfl⟩ := Option.map_eq_some_iff.mp hstep
    by_cases hgt : Gt ackNumber.toNat read.sender.tx.firstByteSeq
    · have hplaced : tx.firstByteSeq = ackNumber.toNat := by
        refine TcpTxBuffer.discardUpTo_firstByteSeq hagrees.sender.2 ackNumber.toNat_lt hgt ?_
          hdiscard
        rw [hdistance, Streaming.remaining, List.length_drop]
        omega
      have hnewAcked : min read.sender.accepted.length (read.sender.acked +
          sub32 ackNumber.toNat read.sender.tx.firstByteSeq) = place := by
        rw [hdistance]
        omega
      simp only [if_pos hgt, hnewAcked] at hholds ⊢
      refine ⟨?_, hlater.accepted, hlater.missing⟩
      exact { hagrees with
        sender := hholds
        firstByteSeq := hplaced.trans hnumber
        acked := hplace }
    · -- a repeated number: `DiscardUpTo` returns at once
      have hsame : tx.firstByteSeq = read.sender.tx.firstByteSeq := by
        have hge : Ge read.sender.tx.firstByteSeq ackNumber.toNat := by
          rw [hnumber, hstart] at hgt ⊢
          refine (ge_add32_iff first (by omega) (by omega)).mpr (Nat.le_of_not_lt fun hlt => hgt ?_)
          exact (gt_add32_iff first (by omega) (by omega)).mpr hlt
        rw [TcpTxBuffer.discardUpTo, if_pos hge] at hdiscard
        rw [Option.some.inj hdiscard]
      simp only [if_neg hgt] at hholds ⊢
      refine ⟨?_, hlater.accepted, hlater.missing⟩
      exact { hagrees with
        sender := hholds
        firstByteSeq := hsame.trans hstart }

end Agrees

/-! ## Steps and runs -/

variable {first window : Nat} {connection next : TcpConnection}

/-- Segments that were sent stay genuine. -/
theorem keeps_of_later (hnext : Agrees first window next ∧ Later connection next)
    {sent : List TcpSegment} (hsent : ∀ segment ∈ sent, Genuine first window next segment) :
    Datagrams.Keeps (Agrees first window) (Genuine first window) connection (next, sent) where
  sound := hnext.1
  stays := fun _ genuine => genuine.later hnext.2
  sent := hsent

theorem act_keeps {action : TcpAction} {result : TcpConnection × List TcpSegment}
    (agrees : Agrees first window connection) (hallowed : connection.KeepsWindow action)
    (hact : connection.act action = some result) :
    Datagrams.Keeps (Agrees first window) (Genuine first window) connection result := by
  have hnone : ∀ segment ∈ ([] : List TcpSegment), Genuine first window result.1 segment :=
    fun _ hmem => absurd hmem List.not_mem_nil
  cases action with
  | tick now =>
      obtain rfl := Option.some.inj hact
      have hnext : Agrees first window { connection with now := now } := { agrees with }
      have hlater : Later connection { connection with now := now } :=
        ⟨List.prefix_rfl, Nat.le_refl _⟩
      exact keeps_of_later ⟨hnext, hlater⟩ hnone
  | send packet =>
      rw [act] at hact
      obtain ⟨next, happly, rfl⟩ := Option.map_eq_some_iff.mp hact
      refine keeps_of_later (agrees.send ?_ happly) hnone
      rw [← agrees.maxBuffer]
      exact hallowed
  | sendDataPacket seq maxSize =>
      have hwindow :
          sub32 seq.toNat connection.sender.tx.firstByteSeq + maxSize.toNat ≤ window := by
        rw [← agrees.maxBuffer]
        exact hallowed
      obtain ⟨hnext, hsent⟩ := agrees.sendDataPacket hwindow hact
      exact keeps_of_later hnext hsent
  | mark op =>
      obtain ⟨next, happly, rfl⟩ := Option.map_eq_some_iff.mp hact
      exact keeps_of_later (agrees.mark hallowed happly) hnone
  | sendEmptyPacket allowedSackBlocks =>
      obtain rfl := Option.some.inj hact
      refine keeps_of_later ⟨agrees, List.prefix_rfl, Nat.le_refl _⟩ fun segment hmem => ?_
      rw [List.mem_singleton.mp hmem]
      exact agrees.sendEmptyPacket allowedSackBlocks
  | recv maxSize =>
      obtain ⟨next, hrecv, rfl⟩ := Option.map_eq_some_iff.mp hact
      exact keeps_of_later (agrees.recv hrecv) hnone

theorem receive_keeps {segment : TcpSegment} {result : TcpConnection × List TcpSegment}
    (agrees : Agrees first window connection) (genuine : Genuine first window connection segment)
    (hreceive : connection.receive segment = some result) :
    Datagrams.Keeps (Agrees first window) (Genuine first window) connection result := by
  have hnone : ∀ segment ∈ ([] : List TcpSegment), Genuine first window result.1 segment :=
    fun _ hmem => absurd hmem List.not_mem_nil
  cases segment with
  | data seq payload =>
      obtain ⟨next, hreceived, rfl⟩ := Option.map_eq_some_iff.mp hreceive
      exact keeps_of_later (agrees.receivedData genuine hreceived) hnone
  | ack ackNumber sackList =>
      obtain ⟨next, hreceived, rfl⟩ := Option.map_eq_some_iff.mp hreceive
      exact keeps_of_later (agrees.receivedAck genuine hreceived) hnone

theorem start_agrees (first sndBuf dupAckThresh : UInt32) (sackEnabled : Bool) {rcvBuf : UInt32}
    (hword : rcvBuf.toNat < 2147483647) :
    Agrees first.toNat rcvBuf.toNat (start first sndBuf rcvBuf dupAckThresh sackEnabled) where
  word := first.toNat_lt
  sender := Streaming.start_holds first sndBuf dupAckThresh sackEnabled
  firstByteSeq := (add32_zero first.toNat_lt).symm
  receiver := ⟨[], [], Receiving.create_holds hword first.toNat_lt []⟩
  isOpen := rfl
  maxBuffer := rfl
  acked := Nat.le_refl _
  short := by
    change 0 + rcvBuf.toNat < 2147483648
    omega

/-- In every run the bytes that were read are the first of those that were written, the sender
keeps all bytes that the peer has not received, and the peer can take every segment. -/
theorem bytes_arrive_inOrder {first sndBuf rcvBuf dupAckThresh : UInt32} {sackEnabled : Bool}
    {events : List (Datagrams.Event TcpAction)} {last : Datagrams.Network TcpConnection TcpSegment}
    (hword : rcvBuf.toNat < 2147483647)
    (hfits : Runs.Fitting step (Datagrams.Allows (fun _ => True) KeepsWindow)
      ⟨start first sndBuf rcvBuf dupAckThresh sackEnabled, []⟩ events)
    (hrun : Runs.runFrom step ⟨start first sndBuf rcvBuf dupAckThresh sackEnabled, []⟩ events =
      some last) :
    last.nodes.receiver.extracted <+: last.nodes.sender.accepted ∧
      last.nodes.receiver.missing ≤ last.nodes.sender.accepted.length ∧
      last.nodes.sender.accepted.drop last.nodes.receiver.missing <:+
        stream last.nodes.sender.tx.sentList ++ stream last.nodes.sender.tx.appList ∧
      ∀ seq payload, TcpSegment.data seq payload ∈ last.inFlight →
        (last.nodes.receivedData seq payload).isSome = true := by
  have hsound : Datagrams.SoundNetwork (Agrees first.toNat rcvBuf.toNat)
      (Genuine first.toNat rcvBuf.toNat) last :=
    Datagrams.soundNetwork_of_run (fun _ _ _ agrees _ => act_keeps agrees)
      (fun _ _ _ agrees _ => receive_keeps agrees)
      ⟨start_agrees first sndBuf dupAckThresh sackEnabled hword,
        fun _ hmem => absurd hmem List.not_mem_nil⟩ hfits hrun
  have agrees := hsound.nodes
  obtain ⟨front, back, holds⟩ := agrees.receiver
  refine ⟨?_, holds.inside, ?_, fun seq payload hmem =>
    agrees.receivedData_isSome (hsound.inFlight _ hmem)⟩
  · rw [holds.extracted]
    exact List.take_prefix _ _
  · rw [agrees.sender.2.bytes, Streaming.remaining, ← Nat.add_sub_of_le agrees.acked,
      ← List.drop_drop]
    exact List.drop_suffix _ _

/-- Six bytes across the end of the sequence numbers: the second segment is first to arrive, the
first arrives twice, and the third is lost and sent again. -/
def reorderedSegments : List (Datagrams.Event TcpAction) :=
  [.act (.send [1, 2, 3, 4, 5, 6]), .act (.sendDataPacket 4294967294 2),
    .act (.sendDataPacket 0 2), .act (.sendDataPacket 2 2), .deliver 1,
    .act (.sendEmptyPacket 1), .duplicate 0, .deliver 2, .lose 1, .deliver 0, .deliver 0,
    .act (.recv 3), .act (.sendEmptyPacket 1), .deliver 0, .act (.tick 200),
    .act (.mark (.setSentListLost true)), .act (.sendDataPacket 2 2), .deliver 0,
    .act (.recv 10), .act (.send [7])]

theorem bytes_arrive_inOrder_reordered :
    ∃ last, Runs.runFrom step ⟨start 4294967294 8 8 3 true, []⟩ reorderedSegments = some last ∧
      last.nodes.receiver.extracted = [1, 2, 3, 4, 5, 6] ∧
      last.nodes.receiver.extracted <+: last.nodes.sender.accepted := by
  obtain ⟨last, hrun, hextracted⟩ := Option.map_eq_some_iff.mp (by decide +kernel :
    (Runs.runFrom step ⟨start 4294967294 8 8 3 true, []⟩ reorderedSegments).map
      (fun last => last.nodes.receiver.extracted) = some [1, 2, 3, 4, 5, 6])
  exact ⟨last, hrun, hextracted, (bytes_arrive_inOrder (by decide) (by decide +kernel) hrun).1⟩

end TcpConnection

end DeepcV2x.Tcp

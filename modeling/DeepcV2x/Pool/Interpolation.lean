import DeepcV2x.Foundation.Cursors
import DeepcV2x.Pool.Mobility
import Mathlib.Algebra.Order.Field.Basic
import Mathlib.Tactic.Linarith

/-!
# Interpolated mobility of a physical UE

`NgsimPoolMobilityModel` answers position and velocity queries from the track
of the vehicle it is assigned.  Both queries search with the one cursor
`m_lastIndex`, a `uint32_t` that no query resets; reading past the track is
`none`, and so is a search that outlasts its fuel.
-/

namespace DeepcV2x.Pool

/-- Unsigned 32-bit values. -/
def toUint32 (value : Nat) : Nat := value % 2 ^ 32

theorem toUint32_of_lt {value : Nat} (small : value < 2 ^ 32) : toUint32 value = value :=
  Nat.mod_eq_of_lt small

/-- A mobility row with its velocity columns. -/
structure TrackRow extends MobilityRow where
  vxMps : ℚ
  vyMps : ℚ
  deriving DecidableEq, Repr

structure Vector3D where
  x : ℚ
  y : ℚ
  z : ℚ
  deriving DecidableEq, Repr

/-- `NgsimPoolMobilityModel`; `rows` is what `m_rows` points to. -/
structure NgsimPoolMobilityModel where
  vehicleId : VehicleId
  rows : Option (List TrackRow)
  lastIndex : Nat
  parkingPosition : Vector3D
  deriving DecidableEq, Repr

/-- The two columns a query interpolates. -/
abbrev Columns := TrackRow → ℚ × ℚ

def positionColumns : Columns := fun row => (row.xM, row.yM)

def velocityColumns : Columns := fun row => (row.vxMps, row.vyMps)

def planar (columns : ℚ × ℚ) : Vector3D := ⟨columns.1, columns.2, 0⟩

namespace NgsimPoolMobilityModel

/-- `none` is the abort on an empty track. -/
def assignVehicle (model : NgsimPoolMobilityModel) (vehicleId : VehicleId)
    (rows : List TrackRow) : Option NgsimPoolMobilityModel :=
  if rows = [] then none
  else some { model with vehicleId := vehicleId, rows := some rows, lastIndex := 0 }

def releaseVehicle (model : NgsimPoolMobilityModel) : NgsimPoolMobilityModel :=
  { model with vehicleId := kInvalidVehicleId, rows := none, lastIndex := 0 }

def setParkingPosition (model : NgsimPoolMobilityModel) (position : Vector3D) :
    NgsimPoolMobilityModel :=
  { model with parkingPosition := position }

end NgsimPoolMobilityModel

/-! ## The search -/

/-- The forward loop over `m_lastIndex`. -/
def advance (rows : List TrackRow) (timeS : ℚ) : Nat → Nat → Option Nat
  | 0, _ => none
  | fuel + 1, lastIndex =>
      if (rows[toUint32 (lastIndex + 1)]?.any fun row => decide (row.timeS ≤ timeS)) = true then
        advance rows timeS fuel (toUint32 (lastIndex + 1))
      else some lastIndex

/-- The backward loop. -/
def retreat (rows : List TrackRow) (timeS : ℚ) : Nat → Option Nat
  | 0 => some 0
  | lastIndex + 1 => do
      let row ← rows[lastIndex + 1]?
      if timeS < row.timeS then retreat rows timeS lastIndex else some (lastIndex + 1)

/-- The value between two neighbouring rows. -/
def blend (columns : Columns) (a b : TrackRow) (timeS : ℚ) : Vector3D :=
  let dt := b.timeS - a.timeS
  if dt ≤ 0 then planar (columns a)
  else
    let alpha := max 0 (min 1 ((timeS - a.timeS) / dt))
    ⟨(columns a).1 + alpha * ((columns b).1 - (columns a).1),
      (columns a).2 + alpha * ((columns b).2 - (columns a).2), 0⟩

/-- Both loops and the reads behind them: the answer and the cursor left behind. -/
def search (fuel : Nat) (columns : Columns) (rows : List TrackRow) (lastIndex : Nat)
    (timeS : ℚ) : Option (Vector3D × Nat) := do
  let forward ← advance rows timeS fuel lastIndex
  let index ← retreat rows timeS forward
  let nextIndex := min (toUint32 (index + 1)) (toUint32 (rows.length - 1))
  let a ← rows[index]?
  let b ← rows[nextIndex]?
  some (blend columns a b timeS, index)

/-- The common body of the two queries; `idle` is the answer without a track. -/
def interpolate (fuel : Nat) (columns : Columns) (idle : Vector3D)
    (model : NgsimPoolMobilityModel) (timeS : ℚ) : Option (Vector3D × NgsimPoolMobilityModel) :=
  match model.rows with
  | none | some [] => some (idle, model)
  | some (front :: rest) =>
      let back := (front :: rest).getLast (List.cons_ne_nil front rest)
      if timeS ≤ front.timeS then some (planar (columns front), model)
      else if back.timeS ≤ timeS then some (planar (columns back), model)
      else
        (search fuel columns (front :: rest) model.lastIndex timeS).map fun found =>
          (found.1, { model with lastIndex := found.2 })

def interpolatePosition (fuel : Nat) (model : NgsimPoolMobilityModel) (timeS : ℚ) :
    Option (Vector3D × NgsimPoolMobilityModel) :=
  interpolate fuel positionColumns model.parkingPosition model timeS

def interpolateVelocity (fuel : Nat) (model : NgsimPoolMobilityModel) (timeS : ℚ) :
    Option (Vector3D × NgsimPoolMobilityModel) :=
  interpolate fuel velocityColumns ⟨0, 0, 0⟩ model timeS

inductive Query
  | position (timeS : ℚ)
  | velocity (timeS : ℚ)
  deriving DecidableEq, Repr

def answer (fuel : Nat) (model : NgsimPoolMobilityModel) :
    Query → Option (Vector3D × NgsimPoolMobilityModel)
  | .position timeS => interpolatePosition fuel model timeS
  | .velocity timeS => interpolateVelocity fuel model timeS

/-- The answers of a sequence of queries and the model they leave. -/
def answerAll (fuel : Nat) :
    NgsimPoolMobilityModel → List Query → Option (List Vector3D × NgsimPoolMobilityModel)
  | model, [] => some ([], model)
  | model, query :: queries => do
      let first ← answer fuel model query
      let others ← answerAll fuel first.2 queries
      some (first.1 :: others.1, others.2)

/-! ## The value computed from scratch -/

/-- The index a search without a cursor finds. -/
def indexAt (rows : List TrackRow) (timeS : ℚ) : Nat :=
  lastAtMost (rows.map fun row => row.timeS) timeS

/-- The point at `timeS` on the line through two rows. -/
def onLine (columns : Columns) (a b : TrackRow) (timeS : ℚ) : Vector3D :=
  let alpha := (timeS - a.timeS) / (b.timeS - a.timeS)
  ⟨(columns a).1 + alpha * ((columns b).1 - (columns a).1),
    (columns a).2 + alpha * ((columns b).2 - (columns a).2), 0⟩

/-- End values outside the track, else the line through the row at `indexAt` and the next. -/
def fromScratch (columns : Columns) (rows : List TrackRow) (timeS : ℚ) : Option Vector3D := do
  let front ← rows.head?
  let back ← rows.getLast?
  if timeS ≤ front.timeS then some (planar (columns front))
  else if back.timeS ≤ timeS then some (planar (columns back))
  else
    let a ← rows[indexAt rows timeS]?
    let b ← rows[indexAt rows timeS + 1]?
    some (onLine columns a b timeS)

def answerFromScratch (rows : List TrackRow) : Query → Option Vector3D
  | .position timeS => fromScratch positionColumns rows timeS
  | .velocity timeS => fromScratch velocityColumns rows timeS

/-! ## What the loops find -/

/-- The times of a track, read as a lookup table. -/
abbrev timesOf (rows : List TrackRow) : List ℚ := rows.map fun row => row.timeS

/-- Whether the two loops run for `timeS`: it lies strictly inside the track. -/
structure Inside (rows : List TrackRow) (timeS : ℚ) : Prop where
  sorted : rows.Pairwise fun left right => left.timeS ≤ right.timeS
  front : atMostAt (timesOf rows) timeS 0 = true
  back : atMostAt (timesOf rows) timeS (rows.length - 1) = false

theorem any_le_eq_atMostAt (rows : List TrackRow) (timeS : ℚ) (i : Nat) :
    (rows[i]?.any fun row => decide (row.timeS ≤ timeS)) = atMostAt (timesOf rows) timeS i := by
  simp [atMostAt, Option.any_map]

theorem Inside.timesSorted {rows : List TrackRow} {timeS : ℚ} (inside : Inside rows timeS) :
    (timesOf rows).Pairwise (· ≤ ·) :=
  List.pairwise_map.mpr inside.sorted

theorem Inside.atMostAt_iff {rows : List TrackRow} {timeS : ℚ} (inside : Inside rows timeS)
    (i : Nat) : atMostAt (timesOf rows) timeS i = true ↔ i ≤ indexAt rows timeS :=
  atMostAt_iff_le_lastAtMost inside.timesSorted inside.front i

theorem Inside.nonempty {rows : List TrackRow} {timeS : ℚ} (inside : Inside rows timeS) :
    0 < rows.length := by
  have hlt := lt_length_of_atMostAt inside.front
  simpa using hlt

/-- The row found has a next row. -/
theorem Inside.indexAt_succ_lt {rows : List TrackRow} {timeS : ℚ} (inside : Inside rows timeS) :
    indexAt rows timeS + 1 < rows.length := by
  have hnot : ¬ rows.length - 1 ≤ indexAt rows timeS := by
    rw [← inside.atMostAt_iff, inside.back]
    exact Bool.false_ne_true
  omega

/-- From at most the index sought the forward loop stops there, from behind it at once. -/
theorem advance_of_inside {rows : List TrackRow} {timeS : ℚ} (inside : Inside rows timeS)
    (fits : rows.length ≤ 2 ^ 32) {fuel lastIndex : Nat} (inRange : lastIndex + 1 < rows.length)
    (enough : indexAt rows timeS < fuel + lastIndex) (positive : 0 < fuel) :
    advance rows timeS fuel lastIndex = some (max lastIndex (indexAt rows timeS)) := by
  induction fuel generalizing lastIndex with
  | zero => exact absurd positive (Nat.lt_irrefl 0)
  | succ fuel ih =>
      have small : toUint32 (lastIndex + 1) = lastIndex + 1 :=
        toUint32_of_lt (inRange.trans_le fits)
      have hindex := inside.indexAt_succ_lt
      unfold advance
      rw [any_le_eq_atMostAt, small]
      simp only [inside.atMostAt_iff]
      split
      · next hle =>
          rw [ih (by omega) (by omega) (by omega), max_eq_right hle, max_eq_right (by omega)]
      · next hlt => rw [max_eq_left (by omega)]

/-- From the index sought on the backward loop returns to it. -/
theorem retreat_of_inside {rows : List TrackRow} {timeS : ℚ} (inside : Inside rows timeS)
    {lastIndex : Nat} (inRange : lastIndex < rows.length)
    (behind : indexAt rows timeS ≤ lastIndex) :
    retreat rows timeS lastIndex = some (indexAt rows timeS) := by
  induction lastIndex with
  | zero => simp [retreat, Nat.le_zero.mp behind]
  | succ lastIndex ih =>
      have hrow : rows[lastIndex + 1]? = some rows[lastIndex + 1] :=
        List.getElem?_eq_getElem inRange
      have hkey : rows[lastIndex + 1].timeS ≤ timeS ↔ lastIndex + 1 ≤ indexAt rows timeS := by
        rw [← inside.atMostAt_iff, ← any_le_eq_atMostAt, hrow]
        simp
      simp only [retreat, hrow, Option.bind_eq_bind, Option.bind_some]
      split
      · next hlt => exact ih (by omega) (by have := mt hkey.mpr (not_le.mpr hlt); omega)
      · next hle =>
          have hreach := hkey.mp (not_lt.mp hle)
          congr 1
          omega

/-- Between two rows that enclose the time the clamp of `alpha` is idle. -/
theorem blend_eq_onLine (columns : Columns) {a b : TrackRow} {timeS : ℚ}
    (low : a.timeS ≤ timeS) (high : timeS < b.timeS) :
    blend columns a b timeS = onLine columns a b timeS := by
  have hdt : 0 < b.timeS - a.timeS := by linarith
  have hnonneg : 0 ≤ (timeS - a.timeS) / (b.timeS - a.timeS) :=
    div_nonneg (by linarith) hdt.le
  have hone : (timeS - a.timeS) / (b.timeS - a.timeS) ≤ 1 := by
    rw [div_le_one hdt]
    linarith
  simp only [blend, onLine, if_neg (not_le.mpr hdt), min_eq_right hone, max_eq_right hnonneg]

/-- A cursor either rests at the first row or has a row behind it. -/
def CursorIn (rows : List TrackRow) (lastIndex : Nat) : Prop :=
  lastIndex = 0 ∨ lastIndex + 1 < rows.length

/-- From any cursor of the track the search ends at `indexAt`, on the line through its row. -/
theorem search_of_inside {rows : List TrackRow} {timeS : ℚ} (inside : Inside rows timeS)
    (fits : rows.length ≤ 2 ^ 32) {fuel : Nat} (enough : rows.length ≤ fuel) (columns : Columns)
    {lastIndex : Nat} (cursor : CursorIn rows lastIndex) :
    ∃ a b, rows[indexAt rows timeS]? = some a ∧ rows[indexAt rows timeS + 1]? = some b ∧
      search fuel columns rows lastIndex timeS =
        some (onLine columns a b timeS, indexAt rows timeS) := by
  have hindex := inside.indexAt_succ_lt
  have inRange : lastIndex + 1 < rows.length := by
    rcases cursor with rfl | hlt
    · omega
    · exact hlt
  have hforward : advance rows timeS fuel lastIndex =
      some (max lastIndex (indexAt rows timeS)) :=
    advance_of_inside inside fits inRange (by omega) (by omega)
  have hback : retreat rows timeS (max lastIndex (indexAt rows timeS)) =
      some (indexAt rows timeS) :=
    retreat_of_inside inside (by omega) (le_max_right _ _)
  have ha : rows[indexAt rows timeS]? = some rows[indexAt rows timeS] :=
    List.getElem?_eq_getElem (by omega)
  have hb : rows[indexAt rows timeS + 1]? = some rows[indexAt rows timeS + 1] :=
    List.getElem?_eq_getElem hindex
  have hnext : min (toUint32 (indexAt rows timeS + 1)) (toUint32 (rows.length - 1)) =
      indexAt rows timeS + 1 := by
    rw [toUint32_of_lt (by omega), toUint32_of_lt (by omega), min_eq_left (by omega)]
  have low : rows[indexAt rows timeS].timeS ≤ timeS := by
    have below := (inside.atMostAt_iff (indexAt rows timeS)).mpr (le_refl _)
    rw [← any_le_eq_atMostAt, ha] at below
    simpa using below
  have high : timeS < rows[indexAt rows timeS + 1].timeS := by
    have above := mt (inside.atMostAt_iff (indexAt rows timeS + 1)).mp (Nat.not_succ_le_self _)
    rw [← any_le_eq_atMostAt, hb] at above
    simpa using above
  refine ⟨_, _, ha, hb, ?_⟩
  simp only [search, hforward, hback, ha, hnext, hb, Option.bind_eq_bind, Option.bind_some,
    blend_eq_onLine columns low high]

/-! ## Queries in any order -/

/-- A model with `rows` assigned and its cursor on them. -/
structure Follows (rows : List TrackRow) (model : NgsimPoolMobilityModel) : Prop where
  assigned : model.rows = some rows
  cursor : CursorIn rows model.lastIndex

theorem inside_cons {front : TrackRow} {rest : List TrackRow} {timeS : ℚ}
    (sorted : (front :: rest).Pairwise fun left right => left.timeS ≤ right.timeS)
    (after : ¬ timeS ≤ front.timeS)
    (before : ¬ ((front :: rest).getLast (List.cons_ne_nil front rest)).timeS ≤ timeS) :
    Inside (front :: rest) timeS := by
  refine ⟨sorted, ?_, ?_⟩
  · simp [(not_le.mp after).le]
  · rw [← any_le_eq_atMostAt, ← List.getLast?_eq_getElem?,
      List.getLast?_eq_some_getLast (List.cons_ne_nil front rest)]
    simpa using before

/-- One query answers as from scratch and leaves the cursor on the track. -/
theorem interpolate_fromScratch {rows : List TrackRow}
    (nonempty : rows ≠ []) (sorted : rows.Pairwise fun left right => left.timeS ≤ right.timeS)
    (fits : rows.length ≤ 2 ^ 32) {fuel : Nat} (enough : rows.length ≤ fuel) (columns : Columns)
    (idle : Vector3D) {model : NgsimPoolMobilityModel} (follows : Follows rows model) (timeS : ℚ) :
    ∃ value next, interpolate fuel columns idle model timeS = some (value, next) ∧
      fromScratch columns rows timeS = some value ∧ Follows rows next := by
  cases rows with
  | nil => exact absurd rfl nonempty
  | cons front rest =>
      simp only [interpolate, follows.assigned, fromScratch, List.head?_cons,
        List.getLast?_eq_some_getLast (List.cons_ne_nil front rest), Option.bind_eq_bind,
        Option.bind_some]
      split
      · exact ⟨_, _, rfl, rfl, follows⟩
      · next after =>
          split
          · exact ⟨_, _, rfl, rfl, follows⟩
          · next before =>
              have inside := inside_cons sorted after before
              obtain ⟨a, b, ha, hb, hsearch⟩ :=
                search_of_inside inside fits enough columns follows.cursor
              rw [hsearch, ha, hb]
              exact ⟨_, _, rfl, rfl, rfl, Or.inr inside.indexAt_succ_lt⟩

theorem answer_fromScratch {rows : List TrackRow}
    (nonempty : rows ≠ []) (sorted : rows.Pairwise fun left right => left.timeS ≤ right.timeS)
    (fits : rows.length ≤ 2 ^ 32) {fuel : Nat} (enough : rows.length ≤ fuel)
    {model : NgsimPoolMobilityModel} (follows : Follows rows model) (query : Query) :
    ∃ value next, answer fuel model query = some (value, next) ∧
      answerFromScratch rows query = some value ∧ Follows rows next := by
  cases query with
  | position timeS =>
      exact interpolate_fromScratch nonempty sorted fits enough _ _ follows timeS
  | velocity timeS =>
      exact interpolate_fromScratch nonempty sorted fits enough _ _ follows timeS

theorem answerAll_fromScratch {rows : List TrackRow}
    (nonempty : rows ≠ []) (sorted : rows.Pairwise fun left right => left.timeS ≤ right.timeS)
    (fits : rows.length ≤ 2 ^ 32) {fuel : Nat} (enough : rows.length ≤ fuel)
    (queries : List Query) {model : NgsimPoolMobilityModel} (follows : Follows rows model) :
    ∃ values last, answerAll fuel model queries = some (values, last) ∧
      values.map some = queries.map (answerFromScratch rows) ∧ Follows rows last := by
  induction queries generalizing model with
  | nil => exact ⟨[], model, rfl, rfl, follows⟩
  | cons query queries ih =>
      obtain ⟨value, next, hanswer, hvalue, followsNext⟩ :=
        answer_fromScratch nonempty sorted fits enough follows query
      obtain ⟨values, last, hall, hvalues, followsLast⟩ := ih followsNext
      refine ⟨value :: values, last, ?_, ?_, followsLast⟩
      · simp [answerAll, hanswer, hall]
      · simp [hvalue, hvalues]

theorem Follows.lastIndex_lt {rows : List TrackRow} (nonempty : rows ≠ [])
    {model : NgsimPoolMobilityModel} (follows : Follows rows model) :
    model.lastIndex < rows.length := by
  have hpos := List.length_pos_iff.mpr nonempty
  rcases follows.cursor with hzero | hlt
  · omega
  · omega

/-- After `AssignVehicle` with a sorted track whose indices fit `m_lastIndex`, every sequence of
position and velocity queries is answered as from scratch, and the cursor stays on the track. -/
theorem queries_history_independent (rows : List TrackRow) (nonempty : rows ≠ [])
    (sorted : rows.Pairwise fun left right => left.timeS ≤ right.timeS)
    (fits : rows.length ≤ 2 ^ 32) (model : NgsimPoolMobilityModel) (vehicleId : VehicleId)
    (queries : List Query) (fuel : Nat) (enough : rows.length ≤ fuel) :
    ∃ assigned values last, model.assignVehicle vehicleId rows = some assigned ∧
      answerAll fuel assigned queries = some (values, last) ∧
      values.map some = queries.map (answerFromScratch rows) ∧
      last.rows = some rows ∧ last.lastIndex < rows.length := by
  have hassign : model.assignVehicle vehicleId rows =
      some { model with vehicleId := vehicleId, rows := some rows, lastIndex := 0 } := by
    simp [NgsimPoolMobilityModel.assignVehicle, nonempty]
  have fresh : Follows rows
      { model with vehicleId := vehicleId, rows := some rows, lastIndex := 0 } :=
    ⟨rfl, Or.inl rfl⟩
  obtain ⟨values, last, hall, hvalues, follows⟩ :=
    answerAll_fromScratch nonempty sorted fits enough queries fresh
  exact ⟨_, values, last, hassign, hall, hvalues, follows.assigned,
    follows.lastIndex_lt nonempty⟩

/-- Three rows, two at one time, asked forwards and backwards. -/
theorem queries_history_independent_ties :
    ∃ assigned values last,
      (NgsimPoolMobilityModel.mk kInvalidVehicleId none 7 ⟨-5, -5, 0⟩).assignVehicle 3
          [⟨⟨0, 3, 0, 0⟩, 10, 0⟩, ⟨⟨1, 3, 10, 0⟩, 10, 0⟩, ⟨⟨1, 3, 12, 0⟩, 8, 0⟩,
            ⟨⟨2, 3, 20, 4⟩, 8, 4⟩] = some assigned ∧
        answerAll 4 assigned [.position (3 / 2), .velocity (1 / 2), .position 1, .position 9] =
          some (values, last) ∧
        values.map some =
          [Query.position (3 / 2), .velocity (1 / 2), .position 1, .position 9].map
            (answerFromScratch [⟨⟨0, 3, 0, 0⟩, 10, 0⟩, ⟨⟨1, 3, 10, 0⟩, 10, 0⟩,
              ⟨⟨1, 3, 12, 0⟩, 8, 0⟩, ⟨⟨2, 3, 20, 4⟩, 8, 4⟩]) ∧
        last.rows = some [⟨⟨0, 3, 0, 0⟩, 10, 0⟩, ⟨⟨1, 3, 10, 0⟩, 10, 0⟩,
          ⟨⟨1, 3, 12, 0⟩, 8, 0⟩, ⟨⟨2, 3, 20, 4⟩, 8, 4⟩] ∧ last.lastIndex < 4 :=
  queries_history_independent _ (by simp) (by decide +kernel) (by simp) _ 3 _ 4 (by simp)

/-! ## Tracks past the cursor's range -/

/-- `count` rows at time zero before one at time two. -/
def longTrack (count : Nat) : List TrackRow :=
  List.replicate count ⟨⟨0, 1, 0, 0⟩, 1, 0⟩ ++ [⟨⟨2, 1, 2, 0⟩, 1, 0⟩]

theorem longTrack_ne_nil (count : Nat) : longTrack count ≠ [] := by
  simp [longTrack]

theorem longTrack_sorted (count : Nat) :
    (longTrack count).Pairwise fun left right => left.timeS ≤ right.timeS := by
  unfold longTrack
  rw [List.pairwise_append]
  refine ⟨List.pairwise_replicate.mpr (Or.inr (le_refl _)), List.pairwise_singleton _ _, ?_⟩
  intro left hleft right hright
  rw [List.eq_of_mem_replicate hleft, List.mem_singleton.mp hright]
  norm_num

/-- With 2^32 rows to pass the cursor wraps to the front, and the forward loop has no end. -/
theorem advance_longTrack {count : Nat} (long : 2 ^ 32 ≤ count) (fuel lastIndex : Nat) :
    advance (longTrack count) 1 fuel lastIndex = none := by
  induction fuel generalizing lastIndex with
  | zero => rfl
  | succ fuel ih =>
      have hlt : toUint32 (lastIndex + 1) < count :=
        (Nat.mod_lt _ (Nat.two_pow_pos 32)).trans_le long
      have hrow : (longTrack count)[toUint32 (lastIndex + 1)]? =
          some ⟨⟨0, 1, 0, 0⟩, 1, 0⟩ := by
        unfold longTrack
        rw [List.getElem?_append_left (by simpa using hlt), List.getElem?_replicate, if_pos hlt]
      unfold advance
      rw [hrow, if_pos (by simp), ih]

theorem answerAll_longTrack {count : Nat} (long : 2 ^ 32 ≤ count) (fuel : Nat)
    {model : NgsimPoolMobilityModel} (assigned : model.rows = some (longTrack count)) :
    answerAll fuel model [.position 1] = none := by
  obtain ⟨before, rfl⟩ : ∃ before, count = before + 1 := ⟨count - 1, by omega⟩
  have hcons : longTrack (before + 1) =
      ⟨⟨0, 1, 0, 0⟩, 1, 0⟩ :: longTrack before := rfl
  have hback : (longTrack (before + 1)).getLast (longTrack_ne_nil _) =
      ⟨⟨2, 1, 2, 0⟩, 1, 0⟩ := List.getLast_append_singleton _
  have hforward := advance_longTrack long fuel model.lastIndex
  rw [hcons] at assigned hforward
  simp only [hcons] at hback
  have hsearch : search fuel positionColumns (⟨⟨0, 1, 0, 0⟩, 1, 0⟩ :: longTrack before)
      model.lastIndex 1 = none := by
    simp [search, hforward]
  simp only [answerAll, answer, interpolatePosition, interpolate, assigned, hback, hsearch]
  norm_num

/-- A sorted track of 2^32 + 1 rows: a query inside it is never answered. -/
theorem query_past_cursor_range :
    ∃ rows : List TrackRow, rows ≠ [] ∧
      (rows.Pairwise fun left right => left.timeS ≤ right.timeS) ∧
      rows.length = 2 ^ 32 + 1 ∧
      ∀ (model : NgsimPoolMobilityModel) (vehicleId : VehicleId) (fuel : Nat)
        (assigned : NgsimPoolMobilityModel),
        model.assignVehicle vehicleId rows = some assigned →
          answerAll fuel assigned [.position 1] = none := by
  refine ⟨longTrack (2 ^ 32), longTrack_ne_nil _, longTrack_sorted _, ?_, ?_⟩
  · unfold longTrack
    rw [List.length_append, List.length_replicate, List.length_singleton]
  · intro model vehicleId fuel assigned hassign
    apply answerAll_longTrack (le_refl _) fuel
    unfold NgsimPoolMobilityModel.assignVehicle at hassign
    rw [if_neg (longTrack_ne_nil _)] at hassign
    rw [← Option.some.inj hassign]

end DeepcV2x.Pool

import Courier.Proofs.Check.Reading
import Courier.Proofs.Dispatch.Protocol
import Courier.Proofs.Json.Spelling

/-! # Events of accepted requests

A request is accepted if its coordinates lie neither below nor above their bounds. A coordinate that
is no number does neither, and it is written as null, which no reader takes for a coordinate: a
worker drops the event. Any other coordinate is written as a number, though it may be read as a
neighbour of the double that was written, also when a column gives it back. Such an event is decoded.
-/

namespace Courier.Check

open Float.Model Float.Model.UnpackedFloat Courier.Binary Courier.Json

/-! ## Coordinates -/

/-- A double that is no number, or a number with a small last place. -/
def Coordinate (k : Int) (x : Float) : Prop := x.isNaN = true ∨ LastPlace k x

variable {x low high : Float} {k e : Int} {m n i : Nat} {pos pos' : 0 < m} {b : Binary}

theorem Coordinate.mono {k' : Int} (h : Coordinate k x) (le : k ≤ k') : Coordinate k' x :=
  h.imp_right fun place => place.mono le

theorem lt_of_place {m' : Nat} {e' : Int} {pos' : 0 < m'} (less : e < e') :
    UnpackedFloat.lt (.finite .positive m e pos) (.finite .positive m' e' pos') = true := by
  change (some ((compare e e').then (compare m m')) == some .lt) = true
  rw [Int.compare_eq_lt.2 less]
  rfl

theorem lt_of_place_negative {m' : Nat} {e' : Int} {pos' : 0 < m'} (less : e < e') :
    UnpackedFloat.lt (.finite .negative m' e' pos') (.finite .negative m e pos) = true := by
  change (some ((compare e' e).then (compare m' m)).swap == some .lt) = true
  rw [Int.compare_eq_gt.2 less]
  rfl

/-- A double between a bound and its negative has a last place no greater than the bound. -/
theorem coordinate_of_inside (hlow : low.toModel.unpack = .finite .negative m e pos)
    (hhigh : high.toModel.unpack = .finite .positive m e pos') (normal : -1074 ≤ e)
    (inside : outside low high x = false) : Coordinate e x := by
  unfold outside at inside
  rw [Bool.or_eq_false_iff, decide_eq_false_iff_not, decide_eq_false_iff_not] at inside
  have above : UnpackedFloat.lt x.toModel.unpack low.toModel.unpack = false :=
    Bool.eq_false_iff.2 fun less => inside.1 (decide_eq_true less)
  have below : UnpackedFloat.lt high.toModel.unpack x.toModel.unpack = false :=
    Bool.eq_false_iff.2 fun less => inside.2 (decide_eq_true less)
  rw [hlow] at above
  rw [hhigh] at below
  cases found : ofFloat? x with
  | none =>
      rcases unpack_of_none found with ⟨s, unpacked⟩ | unpacked
      · rw [unpacked] at above below
        cases s with
        | positive => cases below
        | negative => cases above
      · have number : x.isNaN = x.toModel.unpack.isNaN := rfl
        rw [unpacked] at number
        exact Or.inl number
  | some b =>
      refine Or.inr ⟨b, found, ?_⟩
      rcases unpack_of_ofFloat? found with ⟨zero, _⟩ | ⟨s, posb, unpacked⟩
      · rw [exponent_of_mantissa_eq_zero found zero]
        exact normal
      · -- doubles of one sign compare by their last places first
        rw [unpacked] at above below
        cases s with
        | positive =>
            refine Int.not_lt.1 fun less => ?_
            exact Bool.false_ne_true (below.symm.trans (lt_of_place less))
        | negative =>
            refine Int.not_lt.1 fun less => ?_
            exact Bool.false_ne_true (above.symm.trans (lt_of_place_negative less))

theorem Point.coordinates_of_accepted {p : Point} (accepted : p.violations = []) :
    Coordinate (-45) p.lat ∧ Coordinate (-45) p.lon := by
  obtain ⟨lat, lon⟩ := List.append_eq_nil_iff.1 accepted
  have inside {low high x : Float} {v : Violation}
      (h : (if outside low high x then [v] else []) = []) : outside low high x = false := by
    cases hx : outside low high x with
    | false => rfl
    | true =>
        rw [hx] at h
        cases h
  have low90 : ((-90.0 : Float)).toModel.unpack =
    .finite .negative 6333186975989760 (-46) (by decide) := rfl
  have high90 : (90.0 : Float).toModel.unpack =
    .finite .positive 6333186975989760 (-46) (by decide) := rfl
  have low180 : ((-180.0 : Float)).toModel.unpack =
    .finite .negative 6333186975989760 (-45) (by decide) := rfl
  have high180 : (180.0 : Float).toModel.unpack =
    .finite .positive 6333186975989760 (-45) (by decide) := rfl
  exact ⟨(coordinate_of_inside low90 high90 (by decide) (inside lat)).mono (by decide),
    coordinate_of_inside low180 high180 (by decide) (inside lon)⟩

/-- A last place bounds the value. -/
theorem small_of_place (found : ofFloat? x = some b) (place : b.exponent ≤ k) (fine : k ≤ -16)
    (value : 2 ^ 53 ≤ 10 ^ n * 2 ^ (-k).toNat) (log : (52 + k) * 30103 / 100000 + 1 ≤ n) :
    b.Small n where
  bits := (bounds_of_ofFloat? found).1
  place := by omega
  value := by
    have finer : 2 ^ (-k).toNat ≤ 2 ^ (-b.exponent).toNat :=
      Nat.pow_le_pow_right (by decide) (by omega)
    exact Nat.le_trans value (Nat.mul_le_mul_left _ finer)
  log := by omega

theorem json_of_isNaN (nan : x.isNaN = true) : Json.float x = .null := by
  have infinite : ¬ x.isFinite = true := by
    change x.toModel.unpack.isNaN = true at nan
    change ¬ x.toModel.unpack.isFinite = true
    cases h : x.toModel.unpack with
    | notANumber => exact Bool.false_ne_true
    | _ =>
        rw [h] at nan
        cases nan
  rw [Json.float, if_neg infinite]

theorem isNaN_of_lastPlace (h : LastPlace k x) : x.isNaN = false := by
  cases nan : x.isNaN with
  | false => rfl
  | true =>
      have written := json_of_isNaN nan
      rw [Json.float, if_pos h.isFinite] at written
      cases written

/-- A coordinate comes back as a coordinate, if less exact. -/
theorem Coordinate.reads (h : Coordinate (-45) x) :
    ∃ y, Coordinate (-35) y ∧ y.isNaN = x.isNaN ∧ ∀ d, Reads d (.float x) (.float y) := by
  rcases h with nan | ⟨b, found, place⟩
  · refine ⟨x, Or.inl nan, rfl, fun d => ?_⟩
    rw [json_of_isNaN nan]
    rfl
  · have small : b.Small 3 := small_of_place found place (by decide) (by decide) (by decide)
    obtain ⟨l, y, written, value, place'⟩ :=
      exists_number found small (i := 14) (by decide) (by decide) (by decide)
    have same : y.isNaN = x.isNaN :=
      (isNaN_of_lastPlace place').trans (isNaN_of_lastPlace ⟨b, found, place⟩).symm
    refine ⟨y, Or.inr place', same, fun d => ?_⟩
    rw [Reads, written, ofSource?, value, Json.float, if_pos place'.isFinite]
    rfl

/-- A number is read as a coordinate, and nothing else is. -/
theorem Coordinate.float? (h : Coordinate (-35) x) :
    ∃ y, (source (.float x)).float? = if x.isNaN then none else some y := by
  rcases h with nan | ⟨b, found, place⟩
  · rw [json_of_isNaN nan, nan]
    exact ⟨x, rfl⟩
  · have small : b.Small 6 := small_of_place found place (by decide) (by decide) (by decide)
    obtain ⟨l, y, written, value, _⟩ :=
      exists_number found small (i := 24) (by decide) (by decide) (by decide)
    rw [isNaN_of_lastPlace ⟨b, found, place⟩, written, Source.float?, value]
    exact ⟨y, rfl⟩

/-! ## Events -/

def Point.numeric (p : Point) : Bool := !p.lat.isNaN && !p.lon.isNaN

theorem Point.ofSource?_of_coordinates {p : Point} (lat : Coordinate (-35) p.lat)
    (lon : Coordinate (-35) p.lon) :
    ∃ q, Point.ofSource? (source p.json) = if p.numeric then some q else none := by
  obtain ⟨y, hy⟩ := lat.float?
  obtain ⟨z, hz⟩ := lon.float?
  refine ⟨⟨y, z⟩, ?_⟩
  rw [Point.ofSource?, p.fields?_source, Point.numeric]
  change ((source (.float p.lat)).float?.bind fun lat =>
    (source (.float p.lon)).float?.bind fun lon => some (⟨lat, lon⟩ : Point)) = _
  rw [hy, hz]
  cases p.lat.isNaN <;> cases p.lon.isNaN <;> rfl

/-- A point is read as a point with as many numbers. -/
theorem Point.reads_of_coordinates {p : Point} (lat : Coordinate (-45) p.lat)
    (lon : Coordinate (-45) p.lon) : ∃ q : Point, q.numeric = p.numeric ∧
      Coordinate (-35) q.lat ∧ Coordinate (-35) q.lon ∧ ∀ d, Reads (d + 1) p.json q.json := by
  obtain ⟨y, hy, same, ready⟩ := lat.reads
  obtain ⟨z, hz, same', readz⟩ := lon.reads
  refine ⟨⟨y, z⟩, ?_, hy, hz, fun d => ?_⟩
  · rw [Point.numeric, Point.numeric, same, same']
  · exact reads_object.2 ⟨[("lat", .float y), ("lon", .float z)], .cons ⟨rfl, ready d⟩
      (.cons ⟨rfl, readz d⟩ .nil), rfl⟩

namespace Completed

variable {e : Completed}

/-- The text of an event is read as an event of the same check if the coordinates are numbers, and as
none otherwise. -/
theorem ofText?_of_coordinates (fits : e.Fits) (bounded : e.occurredAt.nano < 2000000000)
    (calendar : e.occurredAt.InCalendar) (lat : Coordinate (-35) e.point.lat)
    (lon : Coordinate (-35) e.point.lon) : ∃ e', e'.checkId = e.checkId ∧
      ofText? e.json.text = if e.point.numeric then some e' else none := by
  obtain ⟨q, point⟩ := Point.ofSource?_of_coordinates lat lon
  obtain ⟨t, time⟩ := Instant.exists_ofText?_text bounded calendar
  refine ⟨⟨e.checkId, e.userId, q, e.incidentIds, t⟩, rfl, ?_⟩
  rw [ofText?, Source.ofText?_text, Option.bind_some, ofSource?, e.fields?_source]
  cases numeric : e.point.numeric <;>
    simp [Source.word?_source fits.1, Source.words?_source fits.2, Source.string?_source, point,
      numeric, time]

/-- A column gives back the event at a neighbouring point. -/
theorem value_of_coordinates (fits : e.Fits) (lat : Coordinate (-45) e.point.lat)
    (lon : Coordinate (-45) e.point.lon) : ∃ q : Point, q.numeric = e.point.numeric ∧
      Coordinate (-35) q.lat ∧ Coordinate (-35) q.lon ∧
      Json.ofText? e.json.text = some { e with point := q }.json := by
  obtain ⟨q, same, hlat, hlon, point⟩ := Point.reads_of_coordinates lat lon
  exact ⟨q, same, hlat, hlon, ofText?_of_point fits (point 125)⟩

/-- What a relay may push for an event: the text of its value, or of the value that a column gives
back for it. -/
inductive Body (e : Completed) : String → Prop
  | written : Body e e.json.text
  | stored {v : Json} (read : (Document.ofJson e.json).value? = some v) : Body e v.text

/-- Whatever is pushed for an event is read as an event of the same check, or as none if a coordinate
is no number. -/
theorem Body.spells {body : String} (h : Body e body) (fits : e.Fits)
    (bounded : e.occurredAt.nano < 2000000000) (calendar : e.occurredAt.InCalendar)
    (lat : Coordinate (-45) e.point.lat) (lon : Coordinate (-45) e.point.lon) :
    ∃ e', e'.checkId = e.checkId ∧ ofText? body = if e.point.numeric then some e' else none := by
  cases h with
  | written =>
      exact ofText?_of_coordinates fits bounded calendar (lat.mono (by decide))
        (lon.mono (by decide))
  | stored read =>
      obtain ⟨q, same, hlat, hlon, value⟩ := value_of_coordinates fits lat lon
      rw [← Option.some.inj (value.symm.trans read), ← same]
      exact ofText?_of_coordinates (e := { e with point := q }) fits bounded calendar hlat hlon

end Completed

/-! ## Deliveries -/

open Dispatch

/-- What workers make of an event.

* `stored`: once stored it can be read back.
* `decoded`: a worker finds the number of the check, if both coordinates are numbers; otherwise it
  finds the body invalid.
* `dropped`: a worker may drop a delivery exactly if a coordinate is no number. -/
structure Understood (e : Completed) : Prop where
  stored : ∃ v, (Document.ofJson e.json).value? = some v
  decoded : ∀ body, e.Body body → ∀ n, businessKey ⟨eventType, body, n⟩ =
    if e.point.numeric then .ok e.idempotencyKey else .error .invalidBody
  dropped : ∀ body, e.Body body → ∀ n, Text.InWord n → ∀ cfg id,
    (handle cfg (.ofMessage id ⟨eventType, body, n⟩)).Yields (.ok .poison) ↔
      e.point.numeric = false

theorem understood_of_coordinates {e : Completed} (fits : e.Fits)
    (bounded : e.occurredAt.nano < 2000000000) (calendar : e.occurredAt.InCalendar)
    (lat : Coordinate (-45) e.point.lat) (lon : Coordinate (-45) e.point.lon) : Understood e where
  stored := by
    obtain ⟨_, _, _, _, value⟩ := Completed.value_of_coordinates fits lat lon
    exact ⟨_, value⟩
  decoded := by
    intro body sent n
    obtain ⟨e', same, spelt⟩ := sent.spells fits bounded calendar lat lon
    unfold businessKey
    rw [if_pos rfl, spelt]
    cases e.point.numeric with
    | false => rfl
    | true =>
        change Except.ok (String.ofList (Text.integer e'.checkId)) = _
        rw [same]
        rfl
  dropped := by
    intro body sent n word cfg id
    obtain ⟨e', _, spelt⟩ := sent.spells fits bounded calendar lat lon
    cases numeric : e.point.numeric with
    | false =>
        rw [numeric] at spelt
        refine iff_of_true (Undecodable.poison (fun m event carries => ?_) cfg) rfl
        obtain rfl : body = m.body := Option.some.inj carries.body
        cases spelt.symm.trans carries.spells
    | true =>
        rw [numeric] at spelt
        have carries := carries_ofMessage (m := ⟨eventType, body, n⟩) id word rfl spelt
        exact iff_of_false carries.not_poison (Ne.symm Bool.false_ne_true)

variable {c : Command} {checkId : Int} {ids : List Int} {time : Instant}

theorem Command.point_accepted (accepted : c.violations = []) : c.point.violations = [] :=
  (List.append_eq_nil_iff.1 (List.append_eq_nil_iff.1 accepted).1).2

/-- The event of an accepted request is understood unless a coordinate is no number. -/
theorem understood_of_accepted (accepted : c.violations = []) (word : Text.InWord checkId)
    (words : ∀ n ∈ ids, Text.InWord n) (bounded : time.nano < 2000000000)
    (calendar : time.InCalendar) : Understood ⟨checkId, c.userId, c.point, ids, time⟩ := by
  obtain ⟨lat, lon⟩ := Point.coordinates_of_accepted (Command.point_accepted accepted)
  exact understood_of_coordinates ⟨word, words⟩ bounded calendar lat lon

def Command.plain : Command := ⟨"u", ⟨52.5, -13.25⟩, 50⟩

theorem understood_of_accepted_plain : Command.plain.violations = [] ∧
    Command.plain.point.numeric = true ∧
    Understood ⟨7, Command.plain.userId, Command.plain.point, [1], ⟨1740830400, 0⟩⟩ := by
  have accepted : Command.plain.violations = [] := rfl
  exact ⟨accepted, rfl, understood_of_accepted accepted (by decide) (by decide) (by decide)
    (by decide)⟩

def Command.nowhere : Command := ⟨"u", ⟨0.0 / 0.0, 0.0⟩, 50⟩

/-- The request is accepted, and its event is lost. -/
theorem accepted_and_dropped : Command.nowhere.violations = [] ∧ ∃ e : Completed,
    e = ⟨7, Command.nowhere.userId, Command.nowhere.point, [1], ⟨1740830400, 0⟩⟩ ∧
    businessKey ⟨eventType, e.json.text, 1⟩ = .error .invalidBody ∧
    ∀ cfg id, (handle cfg (.ofMessage id ⟨eventType, e.json.text, 1⟩)).Yields (.ok .poison) := by
  have accepted : Command.nowhere.violations = [] := rfl
  have none : Command.nowhere.point.numeric = false := rfl
  have rules : Command.nowhere.point.violations = [] := rfl
  obtain ⟨lat, lon⟩ := Point.coordinates_of_accepted rules
  have understood := understood_of_coordinates
    (e := ⟨7, Command.nowhere.userId, Command.nowhere.point, [1], ⟨1740830400, 0⟩⟩)
    ⟨by decide, by decide⟩ (by decide) (by decide) lat lon
  refine ⟨accepted, _, rfl, ?_, fun cfg id => ?_⟩
  · exact (understood.decoded _ .written 1).trans (if_neg (none ▸ Bool.false_ne_true))
  · exact (understood.dropped _ .written 1 (by decide) cfg id).2 none

end Courier.Check

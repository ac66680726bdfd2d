import Courier.Json.Fields
import Courier.Proofs.Check.Completed
import Courier.Proofs.Time.Reading

/-! # Events read back

The text that an event is stored under is read as the event that was written: as a value, which is
what a column gives back, and field by field, which is how its receivers read it.
-/

namespace Courier.Json

/-- The double that is written is the one that its text is read as. -/
def Reproduced (x : Float) : Prop := ofText? (Json.float x).text = some (.number (.float x))

variable {d : Nat} {x : Float} {k : String} {v : Json} {vs : List Json} {ms : List (String × Json)}

def double? : Json → Option Float
  | .number (.float x) => some x
  | _ => none

theorem double?_eq_some : v.double? = some x ↔ v = .number (.float x) := by
  cases v with
  | number n => cases n <;> simp [double?]
  | _ => simp [double?]

instance (x : Float) : Decidable (Reproduced x) :=
  decidable_of_iff ((ofText? (Json.float x).text).bind double? = some x) <| by
    simp [Reproduced, Option.bind_eq_some_iff, double?_eq_some]

theorem Reproduced.float_eq (h : Reproduced x) : Json.float x = .number (.float x) := by
  unfold Reproduced at h
  unfold Json.float at h ⊢
  split
  · rfl
  · rename_i infinite
    rw [if_neg infinite, ofText?_text_eq_some, Reads, source, ofSource?] at h
    cases h

theorem Reproduced.reads (h : Reproduced x) : Reads d (.float x) (.float x) := by
  have read := (ofText?_text_eq_some.1 h).float (e := d)
  rw [h.float_eq] at read ⊢
  exact read

/-! ## Fields of a tree -/

namespace Source

theorem word?_source {n : Int} (fits : Text.InWord n) : (source (.int n)).word? = some n := by
  obtain ⟨l, hl, value⟩ := literal?_integer n
  have high : n ≤ Decimal.Literal.wordMax := Int.le_trans fits.2 (by decide)
  have whole : l.int? = some n := by rw [Decimal.Literal.int?, value fits.1 high]
  have tree : source (.int n) = .number l := by rw [int, source, numberText, hl]; rfl
  rw [tree, word?, intBetween?, whole]
  exact Option.filter_some_pos (decide_eq_true fits)

theorem words?_source {ns : List Int} (fits : ∀ n ∈ ns, Text.InWord n) :
    (source (.array (ns.map .int))).words? = some ns := by
  rw [source, words?]
  induction ns with
  | nil => rfl
  | cons n ns ih =>
      have first := word?_source (fits n List.mem_cons_self)
      have rest := ih fun m hm => fits m (List.mem_cons_of_mem n hm)
      simp [sources, first, rest]

theorem string?_source (s : String) : (source (.string s)).string? = some s := by
  rw [source, string?, text?_map_char]

theorem float?_source (h : Reproduced x) : (source (.float x)).float? = some x := by
  have read := ofText?_text_eq_some.1 h
  rw [Reads] at read
  rw [h.float_eq] at read ⊢
  rw [source] at read ⊢
  cases hl : literal? (numberText (.float x)) with
  | none =>
      rw [hl] at read
      cases read
  | some l =>
      rw [hl] at read
      have value : l.number? = some (.float x) := by
        cases hn : l.number? with
        | none => simp [ofSource?, hn] at read
        | some n => simpa [ofSource?, hn] using read
      simp [float?, value, Number.toFloat]

theorem decodeKeys?_memberSources (ms : List (String × Json)) :
    decodeKeys? (memberSources ms) = some (ms.map fun m => (m.1, source m.2)) := by
  rw [decodeKeys?]
  induction ms with
  | nil => rfl
  | cons m ms ih => simp [memberSources, text?_map_char, ih]

theorem filter_key (once : (ms.map (·.1)).Nodup) (hm : (k, v) ∈ ms) :
    ms.filter (fun m => m.1 == k) = [(k, v)] := by
  induction ms with
  | nil => cases hm
  | cons m ms ih =>
      obtain ⟨apart, once⟩ := List.nodup_cons.1 once
      rcases List.mem_cons.1 hm with rfl | hm
      · have rest : ms.filter (fun m => m.1 == k) = [] :=
          List.filter_eq_nil_iff.2 fun m hm same =>
            apart (List.mem_map.2 ⟨m, hm, beq_iff_eq.1 same⟩)
        simp [rest]
      · have other : m.1 ≠ k := fun same => apart (List.mem_map.2 ⟨_, hm, same.symm⟩)
        simp [other, ih once hm]

theorem membersOf_source (once : (ms.map (·.1)).Nodup) (hm : (k, v) ∈ ms) :
    membersOf k (ms.map fun m => (m.1, source m.2)) = [source v] := by
  have found := filter_key once hm
  simp [membersOf, List.filter_map, Function.comp_def, found]

theorem fields?_source {names : List String} (once : (ms.map (·.1)).Nodup)
    (h : List.Forall₂ (fun name v => (name, v) ∈ ms) names vs) :
    (source (.object ms)).fields? names = some (vs.map source) := by
  rw [source, fields?, decodeKeys?_memberSources, Option.bind_some]
  induction h with
  | nil => rfl
  | cons first _ ih => simp [membersOf_source once first, ih]

end Source

end Courier.Json

namespace Courier.Check

open Courier.Json

theorem Point.fields?_source (p : Point) : (source p.json).fields? ["lat", "lon"] =
    some [source (.float p.lat), source (.float p.lon)] := by
  have members : List.Forall₂ (fun name (v : Json) => (name, v) ∈ [("lat", .float p.lat),
      ("lon", .float p.lon)]) ["lat", "lon"] [.float p.lat, .float p.lon] := by simp
  exact Source.fields?_source (by simp) members

theorem Point.ofSource?_source {p : Point} (lat : Reproduced p.lat) (lon : Reproduced p.lon) :
    Point.ofSource? (source p.json) = some p := by
  simp [Point.ofSource?, p.fields?_source, Source.float?_source lat, Source.float?_source lon]

namespace Completed

/-- The numbers of an event fit words, its coordinates are read as they are written, and it happened
in a year of four digits. -/
structure Readable (e : Completed) : Prop where
  fits : e.Fits
  lat : Reproduced e.point.lat
  lon : Reproduced e.point.lon
  proper : e.occurredAt.Proper
  year : 0 ≤ e.occurredAt.date.year ∧ e.occurredAt.date.year ≤ 9999

variable {e : Completed}

/-- A value is read as the value of the event at the point that its own is read as. -/
theorem ofText?_of_point (fits : e.Fits) {q : Point} (point : Reads 126 e.point.json q.json) :
    Json.ofText? e.json.text = some { e with point := q }.json := by
  rw [ofText?_text_eq_some, json_eq, json_eq, depthLimit]
  refine reads_object.2 ⟨[_, _, _, ("point", q.json), _], .cons ⟨rfl, ?_⟩ (.cons ⟨rfl, ?_⟩
    (.cons ⟨rfl, ?_⟩ (.cons ⟨rfl, point⟩ (.cons ⟨rfl, ?_⟩ .nil)))), rfl⟩
  · exact (reads_int fits.1).2 rfl
  · exact (reads_ints fits.2).2 rfl
  · exact reads_string.2 rfl
  · exact reads_string.2 rfl

theorem Readable.value (h : e.Readable) : Json.ofText? e.json.text = some e.json :=
  ofText?_of_point h.fits
    (reads_object.2 ⟨_, .cons ⟨rfl, h.lat.reads⟩ (.cons ⟨rfl, h.lon.reads⟩ .nil), rfl⟩)

theorem Readable.document (h : e.Readable) : (Document.ofJson e.json).value? = some e.json := h.value

theorem fields?_source (e : Completed) : (source e.json).fields? fieldNames =
    some [source (.int e.checkId), source (.string e.userId), source e.point.json,
      source (.array (e.incidentIds.map .int)), source (.string e.occurredAt.text)] := by
  have members : List.Forall₂ (fun name (v : Json) => (name, v) ∈ [("check_id", .int e.checkId),
      ("incident_ids", .array (e.incidentIds.map .int)),
      ("occurred_at", .string e.occurredAt.text), ("point", e.point.json),
      ("user_id", .string e.userId)]) fieldNames [.int e.checkId, .string e.userId, e.point.json,
      .array (e.incidentIds.map .int), .string e.occurredAt.text] := by
    simp [fieldNames]
  rw [json_eq]
  exact Source.fields?_source (by simp) members

theorem Readable.event (h : e.Readable) : ofText? e.json.text = some e := by
  rw [ofText?, Source.ofText?_text, Option.bind_some, ofSource?, e.fields?_source]
  simp [Source.word?_source h.fits.1, Source.words?_source h.fits.2, Source.string?_source,
    Point.ofSource?_source h.lat h.lon, Instant.ofText?_text h.proper h.year]

end Completed

end Courier.Check

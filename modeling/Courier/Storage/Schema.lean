/-!
# The schema

The tables of the database and the migrations that create them, each of which can be taken back.
Migrations are applied in order and taken back in the reverse order.
-/

namespace Courier.Storage

structure Column where
  name : String
  /-- It cannot be null. -/
  required : Bool
  /-- Its place in the primary key, from one; zero outside it. -/
  keyPlace : Nat
  /-- The value of a row that gives none, as it is declared. -/
  standard : Option String
  deriving DecidableEq, Repr

namespace Column

def filled (name : String) : Column := ⟨name, true, 0, none⟩

def nullable (name : String) : Column := ⟨name, false, 0, none⟩

def key (name : String) (place : Nat) : Column := ⟨name, true, place, none⟩

def withStandard (name value : String) : Column := ⟨name, true, 0, some value⟩

end Column

structure Index where
  name : String
  columns : List String
  deriving DecidableEq, Repr

structure Shape where
  name : String
  columns : List Column
  indexes : List Index
  deriving DecidableEq, Repr

structure Migration where
  name : String
  tables : List Shape
  deriving DecidableEq, Repr

namespace Migration

def checks : Migration where
  name := "m20250301_000001_create_location_checks"
  tables :=
    [{ name := "location_checks"
       columns := [.key "id" 1, .filled "user_id", .filled "lat", .filled "lon",
         .filled "created_at"]
       indexes := [⟨"idx_location_checks_user_id", ["user_id"]⟩] },
     { name := "location_check_incidents"
       columns := [.key "check_id" 1, .key "incident_id" 2]
       indexes := [] }]

def outbox : Migration where
  name := "m20250301_000002_create_webhook_outbox"
  tables :=
    [{ name := "webhook_outbox"
       columns := [.key "id" 1, .filled "event_type", .filled "payload",
         .withStandard "status" "'pending'", .withStandard "attempts" "0",
         .filled "next_attempt_at", .nullable "processing_until", .nullable "last_error",
         .filled "created_at", .filled "updated_at"]
       indexes :=
         [⟨"idx_webhook_outbox_status_next_attempt", ["status", "next_attempt_at"]⟩,
          ⟨"idx_webhook_outbox_status_processing_until", ["status", "processing_until"]⟩] }]

def all : List Migration := [checks, outbox]

end Migration

/-- How far a database is migrated: the number of migrations that are applied. -/
structure Schema where
  applied : Nat
  applied_le : applied ≤ Migration.all.length
  deriving DecidableEq, Repr

namespace Schema

def empty : Schema := ⟨0, Nat.zero_le _⟩

/-- Applies the next migrations, all of them or at most some number. -/
def up (s : Schema) (n : Option Nat) : Schema :=
  ⟨min (s.applied + n.getD Migration.all.length) Migration.all.length, Nat.min_le_right _ _⟩

def down (s : Schema) (n : Option Nat) : Schema :=
  ⟨s.applied - n.getD Migration.all.length, Nat.le_trans (Nat.sub_le _ _) s.applied_le⟩

def migrations (s : Schema) : List Migration := Migration.all.take s.applied

def tables (s : Schema) : List Shape := s.migrations.flatMap (·.tables)

@[simp] theorem up_none (s : Schema) : (s.up none).migrations = Migration.all := by
  simp [up, migrations]

@[simp] theorem down_none (s : Schema) : (s.down none).migrations = [] := by
  have h := s.applied_le
  simp [down, migrations]
  omega

theorem down_up (s : Schema) (n : Nat) (h : s.applied + n ≤ Migration.all.length) :
    (s.up (some n)).down (some n) = s := by
  obtain ⟨a, ha⟩ := s
  have h : a + n ≤ Migration.all.length := h
  simp only [up, down, Option.getD_some, mk.injEq, Nat.min_eq_left h]
  omega

end Schema

end Courier.Storage

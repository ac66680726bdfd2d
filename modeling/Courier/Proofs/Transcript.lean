import Courier.Dialogue

/-! # Transcripts of dialogues

The questions that a dialogue asked so far, each with its answer, and what is left of it. Since the
answers are arbitrary, a statement about every transcript is one about every sequence of results that
the collaborators may give. A transcript of a compound dialogue is taken apart along the dialogue:
what was asked before a point is a whole transcript of the part before it.
-/

namespace Courier.Dialogue

variable {I J : Interface} {α β : Type}

structure Exchange (I : Interface) where
  call : I.Call
  reply : I.Reply call

/-- Some exchanges lead from a dialogue to what is left of it. -/
inductive Leads : Dialogue I α → List (Exchange I) → Dialogue I α → Prop
  | here (d : Dialogue I α) : Leads d [] d
  | asked {c : I.Call} {k : I.Reply c → Dialogue I α} {xs : List (Exchange I)}
      {rest : Dialogue I α} (r : I.Reply c) (more : Leads (k r) xs rest) :
      Leads (ask c k) (⟨c, r⟩ :: xs) rest

def Unfinished : Dialogue I α → Prop
  | done _ => False
  | ask .. => True

@[simp] theorem unfinished_ask (c : I.Call) (k : I.Reply c → Dialogue I α) :
    (ask c k).Unfinished := trivial

@[simp] theorem not_unfinished_done (a : α) : ¬ (done a : Dialogue I α).Unfinished := id

theorem Unfinished.bind {d : Dialogue I α} (h : d.Unfinished) (f : α → Dialogue I β) :
    (d.bind f).Unfinished := by
  cases d with
  | done a => exact absurd h (not_unfinished_done a)
  | ask c k => trivial

variable {d rest : Dialogue I α} {xs : List (Exchange I)}

theorem leads_done {a : α} : Leads (done a) xs rest ↔ xs = [] ∧ rest = done a := by
  constructor
  · intro h
    cases h
    exact ⟨rfl, rfl⟩
  · rintro ⟨rfl, rfl⟩
    exact .here _

theorem leads_ask {c : I.Call} {k : I.Reply c → Dialogue I α} :
    Leads (ask c k) xs rest ↔
      (xs = [] ∧ rest = ask c k) ∨ ∃ r ys, xs = ⟨c, r⟩ :: ys ∧ Leads (k r) ys rest := by
  constructor
  · intro h
    cases h with
    | here => exact Or.inl ⟨rfl, rfl⟩
    | asked r more => exact Or.inr ⟨r, _, rfl, more⟩
  · rintro (⟨rfl, rfl⟩ | ⟨r, ys, rfl, more⟩)
    · exact .here _
    · exact .asked r more

/-- A transcript of two dialogues in a row stops short in the first one, or holds the whole of it. -/
theorem leads_bind {f : α → Dialogue I β} {rest : Dialogue I β} (h : Leads (d.bind f) xs rest) :
    (∃ d', Leads d xs d' ∧ d'.Unfinished ∧ rest = d'.bind f) ∨
      ∃ a ys zs, xs = ys ++ zs ∧ Leads d ys (done a) ∧ Leads (f a) zs rest := by
  induction d generalizing xs with
  | done a => exact Or.inr ⟨a, [], xs, rfl, .here _, h⟩
  | ask c k ih =>
      rcases leads_ask.1 h with ⟨rfl, rfl⟩ | ⟨r, ys, rfl, more⟩
      · exact Or.inl ⟨ask c k, .here _, trivial, rfl⟩
      · rcases ih r more with ⟨d', part, open_, rfl⟩ | ⟨a, us, zs, rfl, whole, rest⟩
        · exact Or.inl ⟨d', .asked r part, open_, rfl⟩
        · exact Or.inr ⟨a, ⟨c, r⟩ :: us, zs, rfl, .asked r whole, rest⟩

/-- A dialogue in words of another interface, one question for each, is asked what it asks itself. -/
theorem leads_expand {f : (c : I.Call) → Dialogue J (I.Reply c)} {lift : Exchange I → Exchange J}
    (single : ∀ c xs (rest : Dialogue J (I.Reply c)), Leads (f c) xs rest →
      (xs = [] ∧ rest.Unfinished) ∨ ∃ r, xs = [lift ⟨c, r⟩] ∧ rest = done r)
    {xs : List (Exchange J)} {rest : Dialogue J α} (h : Leads (d.expand f) xs rest) :
    ∃ ys d', xs = ys.map lift ∧ Leads d ys d' ∧ (rest.Unfinished ∧ d'.Unfinished ∨
      ∃ a, rest = done a ∧ d' = done a) := by
  induction d generalizing xs with
  | done a =>
      obtain ⟨rfl, rfl⟩ := leads_done.1 h
      exact ⟨[], done a, rfl, .here _, Or.inr ⟨a, rfl, rfl⟩⟩
  | ask c k ih =>
      rcases leads_bind h with ⟨d', part, left, rfl⟩ | ⟨r, ys, zs, rfl, whole, more⟩
      · rcases single c xs d' part with ⟨rfl, _⟩ | ⟨r, _, rfl⟩
        · exact ⟨[], ask c k, rfl, .here _, Or.inl ⟨left.bind _, trivial⟩⟩
        · exact absurd left (not_unfinished_done r)
      · rcases single c ys _ whole with ⟨_, left⟩ | ⟨r', rfl, same⟩
        · exact absurd left (not_unfinished_done r)
        · cases same
          obtain ⟨us, d', rfl, asked, ends⟩ := ih r more
          exact ⟨⟨c, r⟩ :: us, d', rfl, .asked r asked, ends⟩

/-- An exchange of two transcripts in a row is one of the second or of the first. -/
theorem split_append {α : Type} {xs ys before after : List α} {x : α}
    (split : xs ++ ys = before ++ x :: after) :
    (∃ us, before = xs ++ us ∧ ys = us ++ x :: after) ∨ ∃ us, xs = before ++ x :: us := by
  rcases List.append_eq_append_iff.1 split with ⟨us, same, rest⟩ | ⟨us, rfl, rest⟩
  · exact Or.inl ⟨us, same, rest⟩
  · cases us with
    | nil => exact Or.inl ⟨[], by simp, rest.symm⟩
    | cons y us =>
        obtain ⟨rfl, _⟩ := List.cons.inj rest
        exact Or.inr ⟨us, rfl⟩

end Courier.Dialogue

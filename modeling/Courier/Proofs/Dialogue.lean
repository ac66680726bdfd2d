import Courier.Dialogue

/-! # What dialogues keep to

A protocol says which questions may be asked in a stage and to which stage an answer leads. A
dialogue keeps to it if that holds of every question that it may ever come to, whatever the answers
were, so that an interleaving of dialogues can be reasoned about by their stages alone.
-/

namespace Courier.Dialogue

variable {I : Interface} {σ α : Type}

/-- From a stage on a dialogue asks only what `turn` lets it ask, and comes to a result only in a
stage that `ends` with it. -/
def Follows (turn : σ → (c : I.Call) → I.Reply c → σ → Prop) (ends : σ → α → Prop) :
    Dialogue I α → σ → Prop
  | done a, s => ends s a
  | ask _ k, s => ∀ r, ∃ s', turn s _ r s' ∧ Follows turn ends (k r) s'

theorem run_ask {m : Type → Type} [Monad m] (answer : (c : I.Call) → m (I.Reply c)) (c : I.Call)
    (k : I.Reply c → Dialogue I α) :
    (ask c k).run answer = answer c >>= fun r => (k r).run answer := rfl

section State

variable {S β : Type} {answer : (c : I.Call) → StateM S (I.Reply c)} {s s' : S}

theorem run_ask_of {c : I.Call} {k : I.Reply c → Dialogue I α} {r : I.Reply c}
    (replied : (answer c).run s = (r, s')) :
    ((ask c k).run answer).run s = ((k r).run answer).run s' := by
  rw [run_ask, StateT.run_bind, replied]
  rfl

theorem run_bind_of {d : Dialogue I α} {f : α → Dialogue I β} {a : α}
    (first : (d.run answer).run s = (a, s')) :
    ((d.bind f).run answer).run s = ((f a).run answer).run s' := by
  induction d generalizing s with
  | done b =>
      obtain ⟨rfl, rfl⟩ := Prod.mk.inj first
      rfl
  | ask c k ih => exact ih _ first

end State

/-- Some answers lead a dialogue to a result. -/
inductive Yields : Dialogue I α → α → Prop
  | done (a : α) : Yields (done a) a
  | ask {c : I.Call} {k : I.Reply c → Dialogue I α} {a : α} (r : I.Reply c)
      (rest : Yields (k r) a) : Yields (ask c k) a

theorem Yields.bind {β : Type} {d : Dialogue I α} {f : α → Dialogue I β} {a : α} {b : β}
    (first : d.Yields a) (second : (f a).Yields b) : (d.bind f).Yields b := by
  induction first with
  | done a => exact second
  | ask r _ ih => exact .ask r (ih second)

inductive Asks : Dialogue I α → I.Call → Prop
  | now (c : I.Call) (k : I.Reply c → Dialogue I α) : Asks (ask c k) c
  | later {c c' : I.Call} {k : I.Reply c → Dialogue I α} (r : I.Reply c) (rest : Asks (k r) c') :
      Asks (ask c k) c'

/-- Answers that a relation allows lead a dialogue to a result. -/
inductive Told (allowed : (c : I.Call) → I.Reply c → Prop) : Dialogue I α → α → Prop
  | done (a : α) : Told allowed (done a) a
  | ask {c : I.Call} {k : I.Reply c → Dialogue I α} {a : α} (r : I.Reply c) (may : allowed c r)
      (rest : Told allowed (k r) a) : Told allowed (ask c k) a

variable {turn : σ → (c : I.Call) → I.Reply c → σ → Prop} {ends : σ → α → Prop} {s : σ}
  {d : Dialogue I α}

/-- What a dialogue may come to ask, it may ask in some stage. -/
theorem Follows.asks (h : d.Follows turn ends s) {c : I.Call} (asked : d.Asks c) (r : I.Reply c) :
    ∃ s₁ s₂, turn s₁ c r s₂ := by
  induction asked generalizing s with
  | now c k =>
      obtain ⟨s', allowed, _⟩ := h r
      exact ⟨s, s', allowed⟩
  | later first _ ih =>
      obtain ⟨s', _, rest⟩ := h first
      exact ih rest r

/-- What every turn keeps, holds when a dialogue comes to a result. -/
theorem Follows.yields {P : σ → Prop} (h : d.Follows turn ends s) (start : P s)
    (kept : ∀ s c r s', P s → turn s c r s' → P s') {a : α} (result : d.Yields a) :
    ∃ s', P s' ∧ ends s' a := by
  induction result generalizing s with
  | done a => exact ⟨s, start, h⟩
  | ask r _ ih =>
      obtain ⟨s', allowed, rest⟩ := h r
      exact ih rest (kept s _ r s' start allowed)

end Courier.Dialogue

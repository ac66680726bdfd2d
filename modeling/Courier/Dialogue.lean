/-!
# Dialogues

A computation that talks to collaborators, as a tree: it is done, or it asks for something and goes
on with whatever the answer is. The tree says nothing about how questions are answered, so one
dialogue serves a live run, a simulation and an interleaving in which it may be abandoned between
any two questions.
-/

namespace Courier

structure Interface where
  Call : Type
  Reply : Call → Type

/-- A computation that asks questions on the way to its result. -/
inductive Dialogue (I : Interface) (α : Type) : Type
  | done (a : α)
  | ask (call : I.Call) (resume : I.Reply call → Dialogue I α)

namespace Dialogue

variable {I : Interface} {α β : Type}

def call (c : I.Call) : Dialogue I (I.Reply c) := .ask c .done

def bind : Dialogue I α → (α → Dialogue I β) → Dialogue I β
  | done a, f => f a
  | ask c k, f => .ask c fun r => (k r).bind f

instance : Monad (Dialogue I) where
  pure := .done
  bind := bind

def run {m : Type → Type} [Monad m] (answer : (c : I.Call) → m (I.Reply c)) :
    Dialogue I α → m α
  | done a => pure a
  | ask c k => do
    let r ← answer c
    (k r).run answer

/-- The same dialogue in words of another interface. -/
def expand {J : Interface} (f : (c : I.Call) → Dialogue J (I.Reply c)) :
    Dialogue I α → Dialogue J α
  | done a => .done a
  | ask c k => (f c).bind fun r => (k r).expand f

@[simp] theorem pure_eq (a : α) : (pure a : Dialogue I α) = done a := rfl

@[simp] theorem bind_eq (d : Dialogue I α) (f : α → Dialogue I β) : d >>= f = d.bind f := rfl

@[simp] theorem done_bind (a : α) (f : α → Dialogue I β) : (done a).bind f = f a := rfl

@[simp] theorem ask_bind (c : I.Call) (k : I.Reply c → Dialogue I α) (f : α → Dialogue I β) :
    (ask c k).bind f = ask c fun r => (k r).bind f := rfl

@[simp] theorem call_bind (c : I.Call) (f : I.Reply c → Dialogue I β) :
    (call c).bind f = ask c f := rfl

theorem bind_done (d : Dialogue I α) : d.bind done = d := by
  induction d with
  | done a => rfl
  | ask c k ih => simp [ih]

theorem bind_assoc {γ : Type} (d : Dialogue I α) (f : α → Dialogue I β) (g : β → Dialogue I γ) :
    (d.bind f).bind g = d.bind fun a => (f a).bind g := by
  induction d with
  | done a => rfl
  | ask c k ih => simp [ih]

end Dialogue

end Courier

import Courier.Proofs.Dispatch.AtWork
import Courier.Proofs.Relay.AtWork
import Courier.Settings.Values

/-! # Workers contain errors

With settings that keep the rules, neither a relay nor a dispatch worker ever ends for an error: it
goes on with the next round or the next delivery, and ends, with success, only after it was asked to
stop. The request may come at any moment, once so many questions have been answered, and may be
heard late.
-/

namespace Courier

open Dialogue

/-- Nobody is told to stop before a moment, if the request comes at all. -/
def Heeds {I : Interface} (told : Exchange I → Prop) (moment : Option Nat)
    (xs : List (Exchange I)) : Prop :=
  ∀ before x after, xs = before ++ x :: after → told x → ∃ m ∈ moment, m ≤ before.length

/-- Who was told to stop, was told after the request. -/
theorem Heeds.requested {I : Interface} {told : Exchange I → Prop} {moment : Option Nat}
    {xs before after : List (Exchange I)} {x : Exchange I} (h : Heeds told moment xs)
    (split : xs = before ++ x :: after) (heard : told x) : ∃ m ∈ moment, m < xs.length := by
  obtain ⟨m, asked, early⟩ := h before x after split heard
  refine ⟨m, asked, ?_⟩
  rw [split, List.length_append, List.length_cons]
  omega

variable {settings : Settings}

/-- What settings promise about the workers that they set up, whatever the collaborators answer.

* `ticks`: the ticker of the relay has a period.
* `relay`, `worker`: what is to be expected of them at work.
* `relayEnds`, `workerEnds`: they end only after the request to stop. -/
structure ContainErrors (settings : Settings) : Prop where
  ticks : Span.zero < settings.outbox.relay.pollInterval
  relay : ∀ n xs rest, Leads (Relay.run settings.outbox.relay n) xs rest →
    Relay.Contained settings.outbox.relay n xs rest
  relayEnds : ∀ n xs moment, Heeds Relay.Told moment xs →
    Leads (Relay.run settings.outbox.relay n) xs (.done .stopped) → ∃ m ∈ moment, m < xs.length
  worker : ∀ index n xs rest, Leads (Dispatch.run (settings.webhook.worker index) n) xs rest →
    Dispatch.Contained (settings.webhook.worker index) n xs rest
  workerEnds : ∀ index n xs moment, Heeds Dispatch.Told moment xs →
    Leads (Dispatch.run (settings.webhook.worker index) n) xs (.done .stopped) →
      ∃ m ∈ moment, m < xs.length

theorem pollInterval_positive (valid : settings.Valid) :
    Span.zero < settings.outbox.relay.pollInterval := by
  have kept : settings.outbox.violation? = none := by
    have none : settings.violation? = none := valid
    unfold Settings.violation? at none
    cases broken : settings.outbox.violation? with
    | none => rfl
    | some v => simp [broken] at none
  unfold Settings.Outbox.violation? at kept
  split at kept
  · cases kept
  · split at kept
    · cases kept
    · split at kept
      · cases kept
      · rename_i poll
        simp only [Span.lt_iff, Settings.Outbox.relay, Settings.Outbox.pollInterval, Span.ofMillis,
          Span.zero]
        omega

theorem contain_errors (valid : settings.Valid) : ContainErrors settings where
  ticks := pollInterval_positive valid
  relay := fun _ _ _ leads => Relay.contained_of_leads leads
  relayEnds := by
    intro n xs moment heeds leads
    obtain ⟨before, x, last, split, told⟩ := (Relay.contained_of_leads leads).ends rfl
    exact heeds.requested split told
  worker := fun _ _ _ _ leads => Dispatch.contained_of_leads leads
  workerEnds := by
    intro index n xs moment heeds leads
    obtain ⟨before, x, last, split, told, _⟩ := (Dispatch.contained_of_leads leads).ends rfl
    exact heeds.requested split told

/-- A relay whose first claim fails goes on to the next tick, and ends when it is told to stop. -/
def recovering (cfg : Relay.Config) : Relay.Transcript :=
  [Relay.started cfg, ⟨.await .zero, .tick .zero⟩,
    ⟨.work (.claim cfg.batchSize cfg.lease), .error (.database "down")⟩,
    ⟨.work (.report (.line .error "Outbox relay round failed" [])), ()⟩,
    ⟨.await ((Relay.Ticker.start cfg.pollInterval).taken .zero).due, .stop⟩,
    ⟨.work (.report (.line .info "Outbox relay stopped" [])), ()⟩]

theorem contain_errors_standard :
    ∃ settings, Settings.ofTree Settings.standard = .ok settings ∧ ContainErrors settings ∧
      Leads (Relay.run settings.outbox.relay 2) (recovering settings.outbox.relay)
        (.done .stopped) := by
  have accepted : (Settings.ofTree Settings.standard).isOk = true := by decide +kernel
  cases hsettings : Settings.ofTree Settings.standard with
  | error e =>
      rw [hsettings] at accepted
      cases accepted
  | ok settings =>
      refine ⟨settings, rfl, contain_errors (Settings.valid_of_ofTree hsettings), ?_⟩
      exact .asked _ <| .asked _ <| .asked _ <| .asked _ <| .asked _ <| .asked _ <| .here _

end Courier

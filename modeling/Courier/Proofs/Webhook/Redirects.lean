import Courier.Proofs.Transcript
import Courier.Webhook.Sender

/-! # Whose success it is

The sender goes by the status of the last answer. Every redirect before it either repeated the request
or put a plain request for a page in its place. As long as all of them repeated it, what is answered
last is the POST with the body and the headers of the request. After one of the other kind a success
says that there is such a page, and the body reached nobody who answered for it.
-/

namespace Courier.Webhook

open Dialogue

def status? (x : Exchange network) : Option Nat :=
  match (x.reply : Except String Answer) with
  | .ok a => some a.status
  | .error _ => none

def Succeeds (x : Exchange network) : Prop := ∃ status, status? x = some status ∧ IsSuccess status

def Replaces (x : Exchange network) : Prop := ∃ status, status? x = some status ∧ replaces status

/-- The parcel posts the request: its body as it is, under all its headers. -/
def Posts (t : Target) (r : Request) (p : Parcel) : Prop :=
  p.method = .post ∧ p.headers = headers t r ∧ p.body = some r.body

/-- The parcel asks for a page, without a body and without its type. -/
def AsksForPage (t : Target) (r : Request) (p : Parcel) : Prop :=
  p.method = .get ∧ p.headers = (headers t r).filter (·.1 != contentTypeHeader) ∧ p.body = none

variable {t : Target} {r : Request} {p next : Parcel} {a : Answer} {limit : Nat}
  {xs : List (Exchange network)} {result : Except SendError Nat}

/-! ## One redirect -/

theorem redirected?_eq_some (h : redirected? p a = some next) : ∃ url,
    (repeats a.status ∧ ¬ replaces a.status ∧ next = { p with url }) ∨
      (replaces a.status ∧ next = asPlain p url) := by
  unfold redirected? at h
  split at h
  · rename_i followed
    obtain ⟨l, _, resolved⟩ := Option.bind_eq_some_iff.1 h
    split at resolved
    · cases resolved
    · rename_i url _
      cases resolved
      refine ⟨url, ?_⟩
      by_cases again : repeats a.status = true
      · have other : ¬ replaces a.status := by
          simp only [repeats, Bool.or_eq_true, beq_iff_eq] at again
          simp only [replaces, Bool.or_eq_true, beq_iff_eq]
          omega
        exact Or.inl ⟨again, other, if_pos again⟩
      · simp only [again, Bool.false_or] at followed
        exact Or.inr ⟨followed, if_neg again⟩
  · cases h

theorem not_success_of_redirected? (h : redirected? p a = some next) : ¬ IsSuccess a.status := by
  obtain ⟨_, ⟨again, _, _⟩ | ⟨other, _⟩⟩ := redirected?_eq_some h
  · simp only [repeats, Bool.or_eq_true, beq_iff_eq] at again
    unfold IsSuccess
    omega
  · simp only [replaces, Bool.or_eq_true, beq_iff_eq] at other
    unfold IsSuccess
    omega

theorem AsksForPage.redirected (h : AsksForPage t r p) (led : redirected? p a = some next) :
    AsksForPage t r next := by
  obtain ⟨method, names, body⟩ := h
  obtain ⟨url, ⟨_, _, rfl⟩ | ⟨_, rfl⟩⟩ := redirected?_eq_some led
  · exact ⟨method, names, body⟩
  · refine ⟨rfl, ?_, rfl⟩
    simp [asPlain, names]

theorem Posts.redirected (h : Posts t r p) (led : redirected? p a = some next) :
    if replaces a.status then AsksForPage t r next else Posts t r next := by
  obtain ⟨method, names, body⟩ := h
  obtain ⟨url, ⟨_, again, rfl⟩ | ⟨other, rfl⟩⟩ := redirected?_eq_some led
  · rw [if_neg again]
    exact ⟨method, names, body⟩
  · rw [if_pos other]
    exact ⟨rfl, congrArg _ names, rfl⟩

/-! ## The way of a parcel -/

/-- The result that the sender draws from the last answer: there was none, it is taken by its status,
or it leads to where the sender does not follow. -/
inductive Concludes (p : Parcel) : Except String Answer → Except SendError Nat → Prop
  | unanswered (text : String) : Concludes p (.error text) (.error (.transport text))
  | answered {a : Answer} (stays : redirected? p a = none) :
      Concludes p (.ok a) (if IsSuccess a.status then .ok a.status else .error (.status a.status))
  | lost {a : Answer} {next : Parcel} (led : redirected? p a = some next) (text : String) :
      Concludes p (.ok a) (.error (.transport text))

/-- A parcel comes to a result after its first answer, or goes on as the parcel that the answer leads
to. -/
theorem deliver_cases (h : (deliver limit p).Leads xs (.done result)) :
    ∃ reply ys, xs = ⟨p, reply⟩ :: ys ∧ (ys = [] ∧ Concludes p reply result ∨
      ∃ a next rest, reply = .ok a ∧ redirected? p a = some next ∧ limit = rest + 1 ∧
        (deliver rest next).Leads ys (.done result)) := by
  unfold deliver at h
  rcases leads_ask.1 h with ⟨_, unfinished⟩ | ⟨reply, ys, rfl, more⟩
  · cases unfinished
  refine ⟨reply, ys, rfl, ?_⟩
  cases reply with
  | error text =>
      obtain ⟨rfl, same⟩ := leads_done.1 more
      cases same
      exact Or.inl ⟨rfl, .unanswered text⟩
  | ok a =>
      dsimp only at more
      split at more
      · rename_i stays
        obtain ⟨rfl, same⟩ := leads_done.1 more
        cases same
        exact Or.inl ⟨rfl, .answered stays⟩
      · rename_i next led
        split at more
        · obtain ⟨rfl, same⟩ := leads_done.1 more
          cases same
          exact Or.inl ⟨rfl, .lost led _⟩
        · rename_i rest
          split at more
          · exact Or.inr ⟨a, next, rest, rfl, led, rfl, more⟩
          · obtain ⟨rfl, same⟩ := leads_done.1 more
            cases same
            exact Or.inl ⟨rfl, .lost led _⟩

/-- What a parcel becomes on the way to a result, with the answers to each. -/
inductive Way (result : Except SendError Nat) : Parcel → List (Exchange network) → Prop
  | ends {p : Parcel} {reply : Except String Answer} (concludes : Concludes p reply result) :
      Way result p [⟨p, reply⟩]
  | goesOn {p next : Parcel} {a : Answer} {xs : List (Exchange network)}
      (led : redirected? p a = some next) (rest : Way result next xs) :
      Way result p (⟨p, .ok a⟩ :: xs)

theorem way_of_leads (h : (deliver limit p).Leads xs (.done result)) : Way result p xs := by
  induction limit generalizing p xs with
  | zero =>
      obtain ⟨reply, ys, rfl, ⟨rfl, concludes⟩ | ⟨_, _, _, _, _, more, _⟩⟩ := deliver_cases h
      · exact .ends concludes
      · omega
  | succ limit ih =>
      obtain ⟨reply, ys, rfl, ⟨rfl, concludes⟩ | ⟨a, next, rest, rfl, led, same, more⟩⟩ :=
        deliver_cases h
      · exact .ends concludes
      · cases same
        exact .goesOn led (ih more)

namespace Way

/-- Only the last answer can be a success, and the sender passes its status on. -/
theorem success {status : Nat} (way : Way (.ok status) p xs) :
    ∃ x ∈ xs, status? x = some status ∧ IsSuccess status := by
  generalize taken : Except.ok status = result at way
  induction way with
  | ends concludes =>
      cases concludes with
      | unanswered text => cases taken
      | answered stays =>
          split at taken
          · rename_i success
            cases taken
            exact ⟨_, List.mem_cons_self, rfl, success⟩
          · cases taken
      | lost led text => cases taken
  | goesOn led rest ih =>
      obtain ⟨x, hx, told⟩ := ih
      exact ⟨x, List.mem_cons_of_mem _ hx, told⟩

theorem refusal {e : SendError} (way : Way (.error e) p xs) : ∀ x ∈ xs, ¬ Succeeds x := by
  generalize refused : Except.error e = result at way
  induction way with
  | ends concludes =>
      rintro x hx ⟨status, told, success⟩
      obtain rfl := List.mem_singleton.1 hx
      cases concludes with
      | unanswered text => cases told
      | answered stays =>
          cases told
          rw [if_pos success] at refused
          cases refused
      | lost led text =>
          cases told
          exact not_success_of_redirected? led success
  | goesOn led rest ih =>
      intro x hx
      rcases List.mem_cons.1 hx with rfl | later
      · rintro ⟨status, told, success⟩
        cases told
        exact not_success_of_redirected? led success
      · exact ih x later

theorem asksForPage (way : Way result p xs) (start : AsksForPage t r p) :
    ∀ x ∈ xs, AsksForPage t r x.call := by
  induction way with
  | ends concludes =>
      intro x hx
      obtain rfl := List.mem_singleton.1 hx
      exact start
  | goesOn led rest ih =>
      intro x hx
      rcases List.mem_cons.1 hx with rfl | later
      · exact start
      · exact ih (start.redirected led) x later

/-- As long as nothing but repetition is asked for, the request is posted again and again. -/
theorem posts (way : Way result p xs) (start : Posts t r p) (same : ∀ x ∈ xs, ¬ Replaces x) :
    ∀ x ∈ xs, Posts t r x.call := by
  induction way with
  | ends concludes =>
      intro x hx
      obtain rfl := List.mem_singleton.1 hx
      exact start
  | @goesOn p next a xs led rest ih =>
      have again : ¬ replaces a.status := fun other =>
        same _ List.mem_cons_self ⟨a.status, rfl, other⟩
      have posted : Posts t r next := by
        have onward := start.redirected led
        rwa [if_neg again] at onward
      intro x hx
      rcases List.mem_cons.1 hx with rfl | later
      · exact start
      · exact ih posted (fun x hx => same x (List.mem_cons_of_mem _ hx)) x later

/-- Once a page was asked for instead, a success is that of a request for a page. -/
theorem page (way : Way result p xs) (start : Posts t r p) (other : ∃ x ∈ xs, Replaces x) :
    ∀ x ∈ xs, Succeeds x → AsksForPage t r x.call := by
  induction way with
  | ends concludes =>
      -- One answer cannot both be a success and ask for a page.
      obtain ⟨y, hy, status, told, replaced⟩ := other
      obtain rfl := List.mem_singleton.1 hy
      rintro x hx ⟨status', told', success⟩
      obtain rfl := List.mem_singleton.1 hx
      cases told.symm.trans told'
      simp only [replaces, Bool.or_eq_true, beq_iff_eq] at replaced
      unfold IsSuccess at success
      omega
  | @goesOn p next a xs led rest ih =>
      have onward := start.redirected led
      intro x hx success
      rcases List.mem_cons.1 hx with rfl | later
      · obtain ⟨status, told, success⟩ := success
        cases told
        exact absurd success (not_success_of_redirected? led)
      · by_cases replaced : replaces a.status = true
        · rw [if_pos replaced] at onward
          exact rest.asksForPage onward x later
        · rw [if_neg replaced] at onward
          obtain ⟨y, hy, status, told, asked⟩ := other
          rcases List.mem_cons.1 hy with rfl | hy
          · cases told
            exact absurd asked replaced
          · exact ih onward ⟨y, hy, status, told, asked⟩ x later success

end Way

theorem parcel?_posts (h : parcel? t r = some p) : Posts t r p := by
  unfold parcel? at h
  split at h
  · cases h
  · split at h
    · cases h
      exact ⟨rfl, rfl, rfl⟩
    · cases h

/-! ## A request and its success -/

theorem leads_deliver_succ (led : redirected? p a = some next) (web : isWeb next.url = true)
    (more : (deliver limit next).Leads xs (.done result)) :
    (deliver (limit + 1) p).Leads (⟨p, .ok a⟩ :: xs) (.done result) := by
  unfold deliver
  refine .asked _ ?_
  dsimp only
  rw [led]
  dsimp only
  rwa [if_pos web]

/-- Whatever is answered, a parcel comes to a result or goes on with one redirect less. -/
theorem deliver_stops_or (limit : Nat) (p : Parcel) (reply : Except String Answer) :
    (∃ result, (deliver limit p).Leads [⟨p, reply⟩] (.done result)) ∨
      ∃ next rest, limit = rest + 1 ∧ ∀ xs result, (deliver rest next).Leads xs (.done result) →
        (deliver limit p).Leads (⟨p, reply⟩ :: xs) (.done result) := by
  have stops {result : Except SendError Nat} {k : Except String Answer → Talk (Except SendError Nat)}
      (talk : deliver limit p = .ask p k) (ends : k reply = .done result) :
      (deliver limit p).Leads [⟨p, reply⟩] (.done result) := by
    rw [talk]
    exact .asked _ (ends ▸ .here _)
  cases reply with
  | error text => exact Or.inl ⟨_, stops (by unfold deliver; rfl) rfl⟩
  | ok a =>
      cases led : redirected? p a with
      | none => exact Or.inl ⟨_, stops (by unfold deliver; rfl) (by dsimp only; rw [led])⟩
      | some next =>
          cases limit with
          | zero => exact Or.inl ⟨_, stops (by unfold deliver; rfl) (by dsimp only; rw [led])⟩
          | succ rest =>
              by_cases web : isWeb next.url = true
              · exact Or.inr ⟨next, rest, rfl, fun _ _ more => leads_deliver_succ led web more⟩
              · exact Or.inl ⟨_, stops (by unfold deliver; rfl)
                  (by dsimp only; rw [led]; exact if_neg web)⟩

theorem exists_deliver (p : Parcel) {replies : List (Except String Answer)}
    (enough : limit < replies.length) : ∃ xs result, (deliver limit p).Leads xs (.done result) ∧
      xs.map (fun x => (x.reply : Except String Answer)) <+: replies := by
  induction limit generalizing p replies with
  | zero =>
      obtain ⟨reply, later, rfl⟩ := List.exists_cons_of_length_pos enough
      rcases deliver_stops_or 0 p reply with ⟨result, stops⟩ | ⟨_, _, more, _⟩
      · exact ⟨_, result, stops, later, rfl⟩
      · omega
  | succ limit ih =>
      obtain ⟨reply, later, rfl⟩ := List.exists_cons_of_length_pos (Nat.zero_lt_of_lt enough)
      rcases deliver_stops_or (limit + 1) p reply with ⟨result, stops⟩ | ⟨next, rest, same, onward⟩
      · exact ⟨_, result, stops, later, rfl⟩
      · cases same
        obtain ⟨xs, result, leads, start⟩ := ih next (Nat.lt_of_succ_lt_succ enough)
        exact ⟨_, result, onward xs result leads, List.cons_prefix_cons.2 ⟨rfl, start⟩⟩

/-- What a result of the sender says about the request.

* `concludes`: there is a result after at most eleven answers, whatever they are.
* `success`: a success passes on the status of an answer that was one.
* `refusal`: every other exchange is an error.
* `posted`: if no answer asked for another page, all that was answered are POSTs with just the body
  and the headers of the request.
* `page`: if one did, a success is that of a request for a page, without the body. -/
structure GoesByLast (t : Target) (r : Request) : Prop where
  concludes : ∀ replies : List (Except String Answer), redirectLimit < replies.length →
    ∃ xs result, (send t r).Leads xs (.done result) ∧
      xs.map (fun x => (x.reply : Except String Answer)) <+: replies
  success : ∀ xs status, (send t r).Leads xs (.done (.ok status)) →
    ∃ x ∈ xs, status? x = some status ∧ IsSuccess status
  refusal : ∀ xs e, (send t r).Leads xs (.done (.error e)) → ∀ x ∈ xs, ¬ Succeeds x
  posted : ∀ xs result, (send t r).Leads xs (.done result) → (∀ x ∈ xs, ¬ Replaces x) →
    ∀ x ∈ xs, Posts t r x.call
  page : ∀ xs result, (send t r).Leads xs (.done result) → (∃ x ∈ xs, Replaces x) →
    ∀ x ∈ xs, Succeeds x → AsksForPage t r x.call

/-- A request that cannot be sent is refused without an answer; all others are parcels on their way. -/
theorem send_cases (h : (send t r).Leads xs (.done result)) :
    (xs = [] ∧ ∃ e, result = .error e) ∨ ∃ p, Posts t r p ∧ Way result p xs := by
  unfold send at h
  split at h
  · obtain ⟨rfl, same⟩ := leads_done.1 h
    cases same
    exact Or.inl ⟨rfl, _, rfl⟩
  · rename_i p parcel
    exact Or.inr ⟨p, parcel?_posts parcel, way_of_leads h⟩

theorem success_is_of_last (t : Target) (r : Request) : GoesByLast t r where
  concludes := by
    intro replies enough
    unfold send
    split
    · exact ⟨[], _, .here _, List.nil_prefix⟩
    · exact exists_deliver _ enough
  success := by
    intro xs status leads
    rcases send_cases leads with ⟨_, e, refused⟩ | ⟨p, _, way⟩
    · cases refused
    · exact way.success
  refusal := by
    intro xs e leads
    rcases send_cases leads with ⟨rfl, _⟩ | ⟨p, _, way⟩
    · exact fun x hx => absurd hx List.not_mem_nil
    · exact way.refusal
  posted := by
    intro xs result leads
    rcases send_cases leads with ⟨rfl, _⟩ | ⟨p, start, way⟩
    · exact fun _ x hx => absurd hx List.not_mem_nil
    · exact way.posts start
  page := by
    intro xs result leads
    rcases send_cases leads with ⟨rfl, _⟩ | ⟨p, start, way⟩
    · exact fun _ x hx => absurd hx List.not_mem_nil
    · exact way.page start

/-! ### A receiver that moved -/

def formerAddress : Target := ⟨"http://127.0.0.1:8080/old", none⟩

def plainRequest : Request := ⟨"location_check", "17", "17"⟩

/-- The receiver answers that another page is to be asked for, and there is such a page: the sender
says that the request was taken, and the only POST of it was not. -/
theorem moved_and_confirmed : ∃ xs, (send formerAddress plainRequest).Leads xs (.done (.ok 200)) ∧
    xs.map status? = [some 302, some 200] ∧
    ∀ x ∈ xs, Posts formerAddress plainRequest x.call → ¬ Succeeds x := by
  have posted : (parcel? formerAddress plainRequest).any fun p =>
      (redirected? p ⟨302, some "/new"⟩).any fun next => isWeb next.url := by
    decide +kernel
  obtain ⟨p, parcel, onward⟩ := (Option.any_eq_true _ _).1 posted
  obtain ⟨next, led, web⟩ := (Option.any_eq_true _ _).1 onward
  have found : (deliver 9 next).Leads [⟨next, .ok ⟨200, none⟩⟩] (.done (.ok 200)) := by
    unfold deliver
    exact .asked _ (.here _)
  have leads : (deliver redirectLimit p).Leads
      [⟨p, .ok ⟨302, some "/new"⟩⟩, ⟨next, .ok ⟨200, none⟩⟩] (.done (.ok 200)) :=
    leads_deliver_succ led web found
  refine ⟨_, by rw [send, parcel]; exact leads, rfl, ?_⟩
  intro x hx whole success
  have asked := (way_of_leads leads).page (parcel?_posts parcel)
    ⟨_, List.mem_cons_self, 302, rfl, rfl⟩ x hx success
  cases whole.1.symm.trans asked.1

end Courier.Webhook

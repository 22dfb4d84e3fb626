import Fulfilment.Proofs.Service.Creating

/-!
# Requests that keep to their protocol

What a request to create an order has left behind at any time, and where it stands after its claim
was answered. Both are kept by every call that the protocol allows. A request that has not acquired
its key, or has given it back, has left nothing; any other one has stored at most one order, keeps
at most one hold, and has told of nothing but the order that it stored.
-/
namespace Fulfilment
namespace Service

variable {r : CreateRequest} {g : Progress} {log : List (Exchange Shop.calls)} {request : Shop.Call}

/-! ## What a request leaves behind -/

/-- The entry that a key has if nobody else has used it. -/
def Phase.keyState? : Phase → Option KeyState
  | .working => some .inFlight
  | .bound id => some (.completed id)
  | _ => none

/-- What a request has stored, kept and told. -/
structure Tidy (r : CreateRequest) (g : Progress) : Prop where
  saved : g.saved.length ≤ 1
  held : g.held.length ≤ 1
  told : g.told <+: g.saved.flatMap fun o => .created o :: (Notice.reserved? o).toList
  user : ∀ o ∈ g.saved, o.user = r.user
  bound : ∀ {id}, g.phase = .bound id → g.saved.map Order.id = [id]
  nothing : g.phase.keyState? = none → g.saved = [] ∧ g.held = []

variable {cs : List Order} {hs : List Hold} {ns : List Notice}

/-- A request that has left nothing behind may stand anywhere but at a bound key. -/
theorem tidy_nothing {ph : Phase} (h : ∀ id, ph ≠ .bound id) : Tidy r ⟨ph, [], [], []⟩ where
  saved := Nat.zero_le 1
  held := Nat.zero_le 1
  told := List.nil_prefix
  user := by simp
  bound hbound := absurd hbound (h _)
  nothing _ := ⟨rfl, rfl⟩

theorem tidy_working (saved : cs.length ≤ 1) (held : hs.length ≤ 1)
    (told : ns <+: cs.flatMap fun o => .created o :: (Notice.reserved? o).toList)
    (user : ∀ o ∈ cs, o.user = r.user) : Tidy r ⟨.working, cs, hs, ns⟩ where
  saved := saved
  held := held
  told := told
  user := user
  bound h := by cases h
  nothing h := by cases h

/-- Telling of nothing but stored orders, there is nothing to tell without one. -/
theorem Tidy.told_eq_nil (h : Tidy r g) (hsaved : g.saved = []) : g.told = [] := by
  have htold := h.told
  rw [hsaved] at htold
  exact List.prefix_nil.1 htold

/-- A request that works stores an order of its user, or is refused. -/
theorem Tidy.save (h : Tidy r ⟨.working, [], hs, ns⟩) {o : Order} (huser : o.user = r.user)
    (reply : Except BookError Int) :
    Tidy r (Progress.after ⟨.working, [], hs, ns⟩ ⟨.save o, reply⟩) := by
  obtain rfl : ns = [] := h.told_eq_nil rfl
  cases reply with
  | error e => exact tidy_working h.saved h.held h.told h.user
  | ok version =>
    refine tidy_working (Nat.le_refl 1) h.held List.nil_prefix fun o' ho' => ?_
    rw [List.mem_singleton.1 ho']
    exact huser

theorem Tidy.insertHold (h : Tidy r ⟨.working, [], [], ns⟩) (hold : Hold) (added : Bool) :
    Tidy r (Progress.after ⟨.working, [], [], ns⟩ ⟨.stock (.insertHold hold), added⟩) := by
  obtain rfl : ns = [] := h.told_eq_nil rfl
  cases added with
  | false => exact tidy_working h.saved h.held h.told h.user
  | true => exact tidy_working h.saved (Nat.le_refl 1) h.told h.user

theorem Tidy.takeHold (h : Tidy r ⟨.working, [], hs, ns⟩) (id : ReservationId)
    (found : Option Hold) :
    Tidy r (Progress.after ⟨.working, [], hs, ns⟩ ⟨.stock (.takeHold id), found⟩) := by
  obtain rfl : ns = [] := h.told_eq_nil rfl
  exact tidy_working h.saved (Nat.le_trans (List.length_filter_le ..) h.held) h.told h.user

/-- A request that has stored an order tells of it, and then of its reservation. -/
theorem Tidy.publish {o : Order} {n : Notice} (h : Tidy r ⟨.working, [o], hs, ns⟩)
    (hn : ns = [] ∧ n = .created o ∨ ns = [.created o] ∧ Notice.reserved? o = some n)
    (reply : Unit) : Tidy r (Progress.after ⟨.working, [o], hs, ns⟩ ⟨.publish n, reply⟩) := by
  refine tidy_working h.saved h.held ?_ h.user
  rcases hn with ⟨rfl, rfl⟩ | ⟨rfl, hn⟩
  · exact ⟨(Notice.reserved? o).toList, by simp [told?, stored?]⟩
  · simp [told?, stored?, hn]

theorem Tidy.complete {o : Order} (h : Tidy r ⟨.working, [o], hs, ns⟩) (k : RequestKey)
    (reply : Except KeyError Unit) :
    Tidy r (Progress.after ⟨.working, [o], hs, ns⟩ ⟨.complete k o.id, reply⟩) := by
  have hafter : Progress.after ⟨.working, [o], hs, ns⟩ ⟨.complete k o.id, reply⟩ =
      ⟨.bound o.id, [o], hs, ns⟩ := by
    simp [Progress.after, Phase.after, keptAfter, stored?, told?]
  rw [hafter]
  refine ⟨h.saved, h.held, h.told, h.user, fun hbound => ?_, fun hnone => ?_⟩
  · cases hbound
    rfl
  · cases hnone

/-- Whatever a request with its own key does, it leaves little behind. -/
theorem Tidy.after_working (h : Tidy r g) (hphase : g.phase = .working)
    (hworks : g.Works r request) (reply : Shop.calls.Reply request) :
    Tidy r (g.after ⟨request, reply⟩) := by
  obtain ⟨ph, cs, hs, ns⟩ := g
  obtain rfl : ph = .working := hphase
  by_cases hidle : Idle request
  · rwa [Progress.after_idle _ hidle]
  · cases request with
    | save o =>
      obtain ⟨hsaved, -, -, huser⟩ := hworks
      obtain rfl : cs = [] := hsaved
      exact h.save huser reply
    | publish n =>
      obtain ⟨o, hsaved, hn⟩ := hworks
      obtain rfl : cs = [o] := hsaved
      exact h.publish hn reply
    | complete k id =>
      obtain ⟨-, o, hsaved, rfl⟩ := hworks
      obtain rfl : cs = [o] := hsaved
      exact h.complete k reply
    | release k =>
      obtain ⟨-, hsaved, hheld⟩ := hworks
      obtain rfl : cs = [] := hsaved
      obtain rfl : hs = [] := hheld
      obtain rfl : ns = [] := h.told_eq_nil rfl
      exact tidy_nothing fun id hbound => by cases hbound
    | claim k => exact hworks.elim
    | stock request =>
      cases request with
      | insertHold hold =>
        obtain ⟨hsaved, hheld⟩ := hworks
        obtain rfl : cs = [] := hsaved
        obtain rfl : hs = [] := hheld
        exact h.insertHold hold reply
      | takeHold id =>
        obtain ⟨hsaved, -⟩ := hworks
        obtain rfl : cs = [] := hsaved
        exact h.takeHold id reply
      | _ => exact absurd trivial hidle
    | _ => exact absurd trivial hidle

/-- Whatever a request does, it leaves little behind. -/
theorem Tidy.after (h : Tidy r g) (hallowed : g.Allows r request)
    (reply : Shop.calls.Reply request) : Tidy r (g.after ⟨request, reply⟩) := by
  rcases Progress.allows_cases hallowed with ⟨hphase, rfl⟩ | ⟨id, hphase, rfl⟩ | ⟨hphase, hworks⟩
  · obtain ⟨ph, cs, hs, ns⟩ := g
    obtain rfl : ph = .unclaimed := hphase
    obtain ⟨rfl, rfl⟩ : cs = [] ∧ hs = [] := h.nothing rfl
    obtain rfl : ns = [] := h.told_eq_nil rfl
    rcases reply with e | _ | _ | id <;> exact tidy_nothing fun id hbound => by cases hbound
  · have hidle : Idle (.load id) := trivial
    rwa [g.after_idle hidle]
  · exact h.after_working hphase hworks reply

/-! ## How a request was answered -/

/-- The key is the request's own, or was. -/
def Phase.hasOwned : Phase → Bool
  | .working | .bound _ | .released => true
  | _ => false

/-- Where a request can stand whose claim was answered in this way. -/
def Phase.Follows (ph : Phase) : Except KeyError Claim → Prop
  | .error _ => ph = .refused
  | .ok .inFlight => ph = .taken
  | .ok (.completed id) => ph = .replaying id
  | .ok .acquired => ph.hasOwned = true

/-- A request stands where the answer to its claim has led it. -/
structure Claimed (log : List (Exchange Shop.calls)) : Prop where
  fresh : phase log = .unclaimed → ∀ {k reply}, ⟨.claim k, reply⟩ ∉ log
  follows : ∀ {k reply}, ⟨.claim k, reply⟩ ∈ log → (phase log).Follows reply

@[simp] theorem phase_append (log : List (Exchange Shop.calls)) (e : Exchange Shop.calls) :
    phase (log ++ [e]) = (phase log).after e := by simp [phase]

/-- Whatever else a request with its own key does, the key stays or was its own. -/
theorem hasOwned_after_working (hworks : g.Works r request) (reply : Shop.calls.Reply request) :
    (Phase.working.after ⟨request, reply⟩).hasOwned = true ∧ ∀ k, request ≠ .claim k := by
  cases request with
  | claim k => exact hworks.elim
  | _ =>
    refine ⟨rfl, fun k hk => ?_⟩
    cases hk

/-- Whatever a request does, it stands where its claim has led it. -/
theorem Claimed.append (h : Claimed log) (hallowed : (progress log).Allows r request)
    (reply : Shop.calls.Reply request) : Claimed (log ++ [⟨request, reply⟩]) := by
  rcases Progress.allows_cases hallowed with ⟨hphase, rfl⟩ | ⟨id, hphase, rfl⟩ | ⟨hphase, hworks⟩
  · have hphase : phase log = .unclaimed := hphase
    refine ⟨fun hnew => ?_, fun hclaim => ?_⟩
    · rw [phase_append] at hnew
      rcases reply with e | _ | _ | id <;> cases hnew
    · rw [phase_append]
      rcases List.mem_append.1 hclaim with hclaim | hclaim
      · exact absurd hclaim (h.fresh hphase)
      · cases List.mem_singleton.1 hclaim
        rcases reply with e | _ | _ | id <;> rfl
  · have hphase : phase log = .replaying id := hphase
    have hsame : phase (log ++ [⟨.load id, reply⟩]) = phase log := by
      rw [phase_append]
      rfl
    refine ⟨fun hnew => ?_, fun hclaim => ?_⟩
    · rw [hsame, hphase] at hnew
      cases hnew
    · rw [hsame]
      rcases List.mem_append.1 hclaim with hclaim | hclaim
      · exact h.follows hclaim
      · cases List.mem_singleton.1 hclaim
  · have hphase : phase log = .working := hphase
    obtain ⟨howned, hother⟩ := hasOwned_after_working hworks reply
    rw [← hphase, ← phase_append] at howned
    refine ⟨fun hnew => ?_, fun {k answer} hclaim => ?_⟩
    · rw [hnew] at howned
      cases howned
    · rcases List.mem_append.1 hclaim with hclaim | hclaim
      · have hfollows := h.follows hclaim
        rw [hphase] at hfollows
        rcases answer with e | _ | _ | id
        · cases hfollows
        · exact howned
        · cases hfollows
        · cases hfollows
      · exact absurd (congrArg Exchange.request (List.mem_singleton.1 hclaim)).symm (hother k)

theorem claim_eq_self {ks : RequestKeys} {k : RequestKey} (h : (ks.claim k).1 ≠ .ok .acquired) :
    (ks.claim k).2 = ks := by
  unfold RequestKeys.claim at h ⊢
  split at h
  · rw [if_pos ‹_›]
  · rw [if_neg ‹_›]
    split at h
    · simp [*]
    · simp [*]
    · exact absurd rfl h

/-- A request that did not acquire its key changes nothing. -/
theorem Claimed.answer_eq_self (h : Claimed log) {w : World}
    (hallowed : (progress log).Allows r request) {k : RequestKey} {reply : Except KeyError Claim}
    (hclaim : ⟨.claim k, reply⟩ ∈ log ++ [⟨request, (World.answer request w).1⟩])
    (hreply : reply ≠ .ok .acquired) : (World.answer request w).2 = w := by
  rcases Progress.allows_cases hallowed with ⟨hphase, rfl⟩ | ⟨id, -, rfl⟩ | ⟨hphase, hworks⟩
  · rcases List.mem_append.1 hclaim with hclaim | hclaim
    · exact absurd hclaim (h.fresh hphase)
    · cases List.mem_singleton.1 hclaim
      simp only [World.answer]
      rw [claim_eq_self hreply]
  · rfl
  · obtain ⟨-, hother⟩ := hasOwned_after_working hworks (World.answer request w).1
    rcases List.mem_append.1 hclaim with hclaim | hclaim
    · have hfollows := h.follows hclaim
      rw [show phase log = .working from hphase] at hfollows
      rcases reply with e | _ | _ | id
      · cases hfollows
      · exact absurd rfl hreply
      · cases hfollows
      · cases hfollows
    · exact absurd (congrArg Exchange.request (List.mem_singleton.1 hclaim)).symm (hother k)

/-! ## How a request ends -/

/-- Only giving its key back leads a request to have given it back. -/
theorem release_of_released (hallowed : g.Allows r request) {reply : Shop.calls.Reply request}
    (hphase : g.phase.after ⟨request, reply⟩ = .released) :
    g.phase = .working ∧ request = .release r.requestKey := by
  rcases Progress.allows_cases hallowed with ⟨-, rfl⟩ | ⟨id, hg, rfl⟩ | ⟨hg, hworks⟩
  · rcases reply with e | _ | _ | id <;> cases hphase
  · rw [hg] at hphase
    cases hphase
  · rw [hg] at hphase
    cases request with
    | release k => exact ⟨hg, by rw [hworks.1]⟩
    | claim k => exact hworks.elim
    | complete k id => cases hphase
    | _ => cases hphase

/-- A request that acquired its key and failed has given it back. -/
theorem CreateRequest.Ends.phase_of_error {e : ServiceError}
    (h : r.Ends (.order (.error e)) log) (howned : (phase log).hasOwned = true) :
    phase log = .released := by
  cases h with
  | failed hg => exact congrArg Progress.phase hg
  | taken hg | refused hg | lost _ hg =>
    rw [show phase log = _ from congrArg Progress.phase hg] at howned
    cases howned

/-- The key of a request says with what it will be turned away. -/
theorem CreateRequest.Ends.eq_of_taken {a : Answer} (h : r.Ends a log)
    (hphase : phase log = .taken) : a = .order (.error (.duplicateRequest r.key)) := by
  cases h with
  | taken => rfl
  | made _ _ hg | replayed _ hg | refused hg | lost _ hg | failed hg | stopped hg =>
    cases hphase.symm.trans (congrArg Progress.phase hg)

end Service
end Fulfilment

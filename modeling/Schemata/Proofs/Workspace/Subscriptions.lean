import Mathlib.Tactic
import Schemata.Workspace.Listeners

/-!
# Subscriptions

Every subscription returns something to call when the listener is no longer wanted. A ledger keeps
the subscriptions beside the registrations and notes which of them have been called back. The
registrations alone do not tell two subscriptions of one listener apart: a call takes the first
registration of the listener, whosever it is, and calling again takes one more. So there are never
more registrations than open subscriptions, and just as many exactly if nobody calls again while the
listener has another subscription open.
-/
namespace Schemata.Workspace

variable {Listener : Type}

/-- A call from outside. A subscription is known by its number, counted from zero. -/
inductive Call (Listener : Type) where
  | subscribe (l : Listener)
  /-- Calls what a subscription returned, for the first time or again. -/
  | cancel (n : Nat)

structure Subscription (Listener : Type) where
  listener : Listener
  /-- Whether what the subscription returned has been called. -/
  called : Bool := false
deriving DecidableEq

/-- The listeners of the subscriptions that are open, in order. -/
def openListeners (subscriptions : List (Subscription Listener)) : List Listener :=
  (subscriptions.filter (!·.called)).map (·.listener)

/-- All subscriptions so far, by number, with the registrations that they lead to. -/
@[ext] structure Ledger (Listener : Type) where
  subscriptions : List (Subscription Listener) := []
  registered : List Listener := []
deriving DecidableEq

namespace Ledger

/-- The registrations that there should be. -/
def wanted (s : Ledger Listener) : List Listener := openListeners s.subscriptions

section Statement

variable [DecidableEq Listener]

/-- One call. What was never returned cannot be called. -/
def step (s : Ledger Listener) : Call Listener → Ledger Listener
  | .subscribe l =>
    { subscriptions := s.subscriptions ++ [{ listener := l }]
      registered := RegistryChange.apply s.registered (.subscribe l) }
  | .cancel n =>
    match s.subscriptions[n]? with
    | none => s
    | some e =>
      { subscriptions := s.subscriptions.set n { e with called := true }
        registered := RegistryChange.apply s.registered (.unsubscribe e.listener) }

/-- The ledger before each call, and after the last one. -/
def moments (s : Ledger Listener) : List (Call Listener) → List (Ledger Listener)
  | [] => [s]
  | c :: calls => s :: moments (s.step c) calls

/-- A call is not made again while its listener has another subscription open. -/
def Harmless (s : Ledger Listener) : Call Listener → Prop
  | .subscribe _ => True
  | .cancel n => ∀ e ∈ s.subscriptions[n]?, e.called = true → e.listener ∉ s.wanted

/-- From the first open subscription of the listener to the one whose turn it is, none is open that
belongs to another listener. -/
def InTurn (s : Ledger Listener) : Call Listener → Prop
  | .subscribe _ => True
  | .cancel n => ∀ e ∈ s.subscriptions[n]?, e.called = false →
      ∀ l ∈ (openListeners (s.subscriptions.take n)).dropWhile (· ≠ e.listener), l = e.listener

instance (s : Ledger Listener) : (c : Call Listener) → Decidable (s.Harmless c)
  | .subscribe _ => inferInstanceAs (Decidable True)
  | .cancel n => inferInstanceAs
      (Decidable (∀ e ∈ s.subscriptions[n]?, e.called = true → e.listener ∉ s.wanted))

instance (s : Ledger Listener) : (c : Call Listener) → Decidable (s.InTurn c)
  | .subscribe _ => inferInstanceAs (Decidable True)
  | .cancel n => inferInstanceAs
      (Decidable (∀ e ∈ s.subscriptions[n]?, e.called = false →
        ∀ l ∈ (openListeners (s.subscriptions.take n)).dropWhile (· ≠ e.listener), l = e.listener))

end Statement

/-! ## One call -/

@[simp] theorem openListeners_append (xs ys : List (Subscription Listener)) :
    openListeners (xs ++ ys) = openListeners xs ++ openListeners ys := by
  simp [openListeners]

/-- A subscription splits the others into those before and those behind it. -/
theorem exists_split {xs : List (Subscription Listener)} {n : Nat} {e : Subscription Listener}
    (h : xs[n]? = some e) :
    ∃ before behind, xs = before ++ e :: behind ∧ xs.take n = before ∧
      ∀ e', xs.set n e' = before ++ e' :: behind := by
  obtain ⟨hn, rfl⟩ := List.getElem?_eq_some_iff.mp h
  refine ⟨xs.take n, xs.drop (n + 1), ?_, rfl, fun e' => ?_⟩
  · rw [List.getElem_cons_drop, List.take_append_drop]
  · rw [List.set_eq_take_append_cons_drop, if_pos hn]

theorem append_cons_eq_cons_append_iff {before behind : List Listener} {l : Listener} :
    before ++ l :: behind = l :: (before ++ behind) ↔ ∀ x ∈ before, x = l := by
  induction before with
  | nil => simp
  | cons x before ih =>
    rw [List.cons_append, List.cons_append, List.cons.injEq, List.forall_mem_cons]
    refine and_congr_right ?_
    rintro rfl
    exact ih

variable [DecidableEq Listener]

theorem step_cancel_of_none {s : Ledger Listener} {n : Nat} (h : s.subscriptions[n]? = none) :
    s.step (.cancel n) = s := by
  simp only [step, h]

theorem registered_step_cancel {s : Ledger Listener} {n : Nat} {e : Subscription Listener}
    (h : s.subscriptions[n]? = some e) :
    (s.step (.cancel n)).registered = s.registered.erase e.listener := by
  simp only [step, h, RegistryChange.apply]

theorem subscriptions_step_cancel_of_called {s : Ledger Listener} {n : Nat}
    {e : Subscription Listener} (h : s.subscriptions[n]? = some e) (hcalled : e.called = true) :
    (s.step (.cancel n)).subscriptions = s.subscriptions := by
  obtain ⟨before, behind, hxs, -, hset⟩ := exists_split h
  have hsame : ({ e with called := true } : Subscription Listener) = e := by rw [← hcalled]
  simp only [step, h, hsame, hset]
  exact hxs.symm

/-- The first call of what a subscription returned closes it. -/
theorem exists_wanted_step_cancel {s : Ledger Listener} {n : Nat} {e : Subscription Listener}
    (h : s.subscriptions[n]? = some e) (hcalled : e.called = false) :
    ∃ behind, s.wanted = openListeners (s.subscriptions.take n) ++ e.listener :: behind ∧
      (s.step (.cancel n)).wanted = openListeners (s.subscriptions.take n) ++ behind := by
  obtain ⟨before, behind, hxs, htake, hset⟩ := exists_split h
  refine ⟨openListeners behind, ?_, ?_⟩
  · rw [wanted, htake, hxs, openListeners_append]
    simp [openListeners, hcalled]
  · rw [htake]
    simp only [wanted, step, h, hset, openListeners_append]
    simp [openListeners]

/-- Everything that a call can do to the registrations, those that there are and those that there
should be. -/
theorem step_cases (s : Ledger Listener) (c : Call Listener) :
    (∃ l, c = .subscribe l ∧ (s.step c).registered = s.registered ++ [l] ∧
      (s.step c).wanted = s.wanted ++ [l]) ∨
    (∃ n, c = .cancel n ∧ s.subscriptions[n]? = none ∧ s.step c = s) ∨
    (∃ n e, c = .cancel n ∧ s.subscriptions[n]? = some e ∧ e.called = true ∧
      (s.step c).registered = s.registered.erase e.listener ∧ (s.step c).wanted = s.wanted) ∨
    ∃ n e, c = .cancel n ∧ s.subscriptions[n]? = some e ∧ e.called = false ∧
      (s.step c).registered = s.registered.erase e.listener ∧
      ∃ behind, s.wanted = openListeners (s.subscriptions.take n) ++ e.listener :: behind ∧
        (s.step c).wanted = openListeners (s.subscriptions.take n) ++ behind := by
  cases c with
  | subscribe l =>
    refine Or.inl ⟨l, rfl, rfl, ?_⟩
    simp only [wanted, step, openListeners_append]
    rfl
  | cancel n =>
    refine Or.inr ?_
    cases he : s.subscriptions[n]? with
    | none => exact Or.inl ⟨n, rfl, he, step_cancel_of_none he⟩
    | some e =>
      cases hcalled : e.called with
      | true =>
        exact Or.inr (Or.inl ⟨n, e, rfl, he, hcalled, registered_step_cancel he,
          congrArg openListeners (subscriptions_step_cancel_of_called he hcalled)⟩)
      | false =>
        exact Or.inr (Or.inr ⟨n, e, rfl, he, hcalled, registered_step_cancel he,
          exists_wanted_step_cancel he hcalled⟩)

theorem filter_registered_step_cancel {s : Ledger Listener} {n : Nat} {e : Subscription Listener}
    (h : s.subscriptions[n]? = some e) :
    (s.step (.cancel n)).registered.filter (· ≠ e.listener) =
      s.registered.filter (· ≠ e.listener) := by
  rw [registered_step_cancel h, ← List.erase_filter, List.erase_of_not_mem]
  simp

theorem step_cancel_eq_self_iff {s : Ledger Listener} {n : Nat} {e : Subscription Listener}
    (h : s.subscriptions[n]? = some e) (hcalled : e.called = true) :
    s.step (.cancel n) = s ↔ e.listener ∉ s.registered := by
  rw [← List.erase_eq_self_iff, ← registered_step_cancel h]
  constructor
  · intro hsame
    rw [hsame]
  · intro hregistered
    exact Ledger.ext (subscriptions_step_cancel_of_called h hcalled) hregistered

/-- There is a registration for each open subscription, and no other. -/
def Settled (s : Ledger Listener) : Prop := s.registered.Perm s.wanted

/-- A first call takes one from both sides, a call that is made again only a registration. -/
theorem settled_step_iff {s : Ledger Listener} (h : s.Settled) (c : Call Listener) :
    (s.step c).Settled ↔ s.Harmless c := by
  have hmem (l : Listener) : l ∈ s.registered ↔ l ∈ s.wanted := List.Perm.mem_iff h
  obtain ⟨l, rfl, hregistered, hwanted⟩ | ⟨n, rfl, he, hstep⟩ |
    ⟨n, e, rfl, he, hcalled, hregistered, hwanted⟩ |
    ⟨n, e, rfl, he, hcalled, hregistered, behind, hbefore, hafter⟩ := s.step_cases c
  · rw [Settled, hregistered, hwanted]
    exact iff_of_true (List.Perm.append_right [l] h) trivial
  · rw [hstep]
    exact iff_of_true h (by simp [Harmless, he])
  · have hharmless : s.Harmless (.cancel n) ↔ e.listener ∉ s.registered := by
      simp [Harmless, he, hcalled, hmem]
    rw [hharmless, Settled, hregistered, hwanted]
    constructor
    · intro hsettled hin
      -- one registration is gone, but no open subscription
      have hless := List.length_erase_add_one hin
      rw [List.Perm.length_eq hsettled, List.Perm.length_eq h] at hless
      exact Nat.succ_ne_self _ hless
    · intro hout
      rwa [List.erase_of_not_mem hout]
  · have hsettled : (s.step (.cancel n)).Settled := by
      rw [Settled, hregistered, hafter]
      rw [Settled, hbefore] at h
      have hrest := (h.trans List.perm_middle).erase e.listener
      rwa [List.erase_cons_head] at hrest
    exact iff_of_true hsettled (by simp [Harmless, he, hcalled])

/-- The first of its kind is as good as this one exactly if nothing else stands in between. -/
theorem erase_append_cons_eq_iff {before behind : List Listener} {l : Listener} :
    (before ++ l :: behind).erase l = before ++ behind ↔
      ∀ x ∈ before.dropWhile (· ≠ l), x = l := by
  induction before with
  | nil => simp
  | cons x before ih =>
    by_cases hx : x = l
    · subst hx
      simpa using append_cons_eq_cons_append_iff
    · simpa [hx] using ih

theorem registered_step_eq_iff {s : Ledger Listener} (h : s.registered = s.wanted)
    (c : Call Listener) :
    (s.step c).registered = (s.step c).wanted ↔ s.Harmless c ∧ s.InTurn c := by
  obtain ⟨l, rfl, hregistered, hwanted⟩ | ⟨n, rfl, he, hstep⟩ |
    ⟨n, e, rfl, he, hcalled, hregistered, hwanted⟩ |
    ⟨n, e, rfl, he, hcalled, hregistered, behind, hbefore, hafter⟩ := s.step_cases c
  · rw [hregistered, hwanted, h]
    exact iff_of_true rfl ⟨trivial, trivial⟩
  · rw [hstep]
    exact iff_of_true h (by simp [Harmless, InTurn, he])
  · have hkept : s.registered.erase e.listener = s.registered ↔ e.listener ∉ s.wanted := by
      rw [List.erase_eq_self_iff, h]
    rw [hregistered, hwanted, ← h, hkept]
    simp [Harmless, InTurn, he, hcalled]
  · rw [hregistered, hafter, h, hbefore, erase_append_cons_eq_iff]
    simp [Harmless, InTurn, he, hcalled]

/-! ## All calls -/

theorem mem_moments_self (s : Ledger Listener) (calls : List (Call Listener)) :
    s ∈ s.moments calls := by
  cases calls <;> exact List.mem_cons_self

/-- What a single call keeps exactly under some condition holds at every moment exactly if each call
meets its condition. -/
theorem forall_moments_iff {p : Ledger Listener → Prop}
    {q : Ledger Listener → Call Listener → Prop}
    (hstep : ∀ s, p s → ∀ c, p (s.step c) ↔ q s c) {s : Ledger Listener} (hs : p s)
    (calls : List (Call Listener)) :
    (∀ v ∈ s.moments calls, p v) ↔ ∀ v ∈ (s.moments calls).zip calls, q v.1 v.2 := by
  induction calls generalizing s with
  | nil => simpa [moments] using hs
  | cons c calls ih =>
    rw [moments, List.zip_cons_cons, List.forall_mem_cons, List.forall_mem_cons, ← hstep s hs c]
    -- the induction hypothesis asks for `p` after this call, which either side gives
    constructor
    · rintro ⟨-, hlater⟩
      have hnext := hlater _ (mem_moments_self _ calls)
      exact ⟨hnext, (ih hnext).mp hlater⟩
    · rintro ⟨hnext, hlater⟩
      exact ⟨hs, (ih hnext).mpr hlater⟩

theorem count_step_le {s : Ledger Listener} (h : ∀ l, s.registered.count l ≤ s.wanted.count l)
    (c : Call Listener) (l : Listener) :
    (s.step c).registered.count l ≤ (s.step c).wanted.count l := by
  obtain ⟨l', rfl, hregistered, hwanted⟩ | ⟨n, rfl, he, hstep⟩ |
    ⟨n, e, rfl, he, hcalled, hregistered, hwanted⟩ |
    ⟨n, e, rfl, he, hcalled, hregistered, behind, hbefore, hafter⟩ := s.step_cases c
  · rw [hregistered, hwanted, List.count_append, List.count_append]
    exact Nat.add_le_add_right (h l) _
  · rw [hstep]
    exact h l
  · rw [hregistered, hwanted]
    exact (List.erase_sublist.count_le l).trans (h l)
  · have hl := h l
    rw [hbefore, List.count_append, List.count_cons] at hl
    rw [hregistered, hafter, List.count_append, List.count_erase]
    omega

theorem count_le_of_mem_moments {s : Ledger Listener}
    (h : ∀ l, s.registered.count l ≤ s.wanted.count l) (calls : List (Call Listener)) :
    ∀ v ∈ s.moments calls, ∀ l, v.registered.count l ≤ v.wanted.count l := by
  induction calls generalizing s with
  | nil => simpa [moments] using h
  | cons c calls ih =>
    rw [moments, List.forall_mem_cons]
    exact ⟨h, ih (count_step_le h c)⟩

/-- A call takes nothing from other listeners, and made again it changes nothing exactly if its
listener is not registered any more. There are never more registrations than open subscriptions. For
each listener there are just as many at every moment exactly if all calls are harmless, and they
stand in the order of the subscriptions exactly if each call also comes in turn. -/
theorem count_registered_moments (calls : List (Call Listener)) :
    (∀ (s : Ledger Listener) (n : Nat) (e : Subscription Listener), s.subscriptions[n]? = some e →
      (s.step (.cancel n)).registered.filter (· ≠ e.listener) =
          s.registered.filter (· ≠ e.listener) ∧
        (e.called = true → (s.step (.cancel n) = s ↔ e.listener ∉ s.registered))) ∧
      (∀ s ∈ moments {} calls, ∀ l, s.registered.count l ≤ s.wanted.count l) ∧
      ((∀ s ∈ moments {} calls, ∀ l, s.registered.count l = s.wanted.count l) ↔
        ∀ p ∈ (moments {} calls).zip calls, p.1.Harmless p.2) ∧
      ((∀ s ∈ moments {} calls, s.registered = s.wanted) ↔
        ∀ p ∈ (moments {} calls).zip calls, p.1.Harmless p.2 ∧ p.1.InTurn p.2) := by
  have hempty : ({} : Ledger Listener).registered = ({} : Ledger Listener).wanted := rfl
  refine ⟨fun s n e he => ?_, ?_, ?_, ?_⟩
  · exact ⟨filter_registered_step_cancel he, step_cancel_eq_self_iff he⟩
  · exact count_le_of_mem_moments (fun l => (congrArg (List.count l) hempty).le) calls
  · simp only [← List.perm_iff_count]
    exact forall_moments_iff (p := Settled) (q := Harmless) (fun _ => settled_step_iff)
      (List.Perm.of_eq hempty) calls
  · exact forall_moments_iff (p := fun s => s.registered = s.wanted)
      (q := fun s c => s.Harmless c ∧ s.InTurn c) (fun _ => registered_step_eq_iff) hempty calls

/-- One listener subscribes twice, with another in between; all calls come in turn, and two of them
are made again at the end. -/
theorem count_registered_moments_views :
    let calls : List (Call String) :=
      [.subscribe "view", .subscribe "list", .subscribe "view", .cancel 0, .cancel 2, .cancel 0,
        .cancel 2]
    (∀ p ∈ (Ledger.moments {} calls).zip calls, p.1.Harmless p.2 ∧ p.1.InTurn p.2) ∧
      (∀ s ∈ Ledger.moments {} calls, ∀ l, s.registered.count l = s.wanted.count l) ∧
        ∀ s ∈ Ledger.moments {} calls, s.registered = s.wanted := by
  intro calls
  have hcalls : ∀ p ∈ (Ledger.moments {} calls).zip calls, p.1.Harmless p.2 ∧ p.1.InTurn p.2 := by
    decide
  obtain ⟨-, -, hcount, hlist⟩ := count_registered_moments calls
  exact ⟨hcalls, hcount.mpr fun p hp => (hcalls p hp).1, hlist.mpr hcalls⟩

/-- What the first of two subscriptions of one listener returned is called again, and that takes the
second one too. -/
theorem registered_called_again :
    let calls : List (Call String) := [.subscribe "view", .subscribe "view", .cancel 0, .cancel 0]
    (Ledger.moments {} calls).map (·.registered.count "view") = [0, 1, 2, 1, 0] ∧
      (Ledger.moments {} calls).map (·.wanted.count "view") = [0, 1, 2, 1, 1] := by
  decide

end Ledger

end Schemata.Workspace

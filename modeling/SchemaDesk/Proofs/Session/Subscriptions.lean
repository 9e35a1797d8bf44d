import SchemaDesk.Store
import Mathlib.Data.List.Basic

/-!
# Subscriptions and their handles

Whoever subscribes is given a handle to take the subscription back with, and may call it any number
of times, also while being called.  The store knows a handle by its listener only: calling it takes
back the earliest subscription of that listener, whichever one the handle was given for.

A commit therefore calls the listeners of the subscriptions whose handles have not been called, in
order and once for each, as long as handles are called in their turn: a handle is when the earlier
subscriptions of its listener have been taken back, or when the listener has none left
(`commit_calls_standing`).  A second call of a handle takes back another subscription of the
listener, if there is one, though its own handle has not been called (`commit_loses_subscription`).
Only the listener whose handles are called so is concerned.
-/

namespace SchemaDesk

/-- A store with what was done to its subscriptions: whom each handle was given to, and which
handles have been called. -/
structure Subscriptions where
  store : Store
  given : List Listener
  spent : List Nat

namespace Subscriptions

/-! ## Runs -/

/-- What happens to the subscriptions of a store.  Handles are numbered as they are given.  Who is
called is settled when a commit begins, so a handle that is called meanwhile is called after it. -/
inductive Event where
  | subscribe (l : Listener)
  | release (handle : Nat)
  | commit (p : Project) (ids : IdSupply)

/-- The subscriptions of a store, before any handle is called. -/
def ofStore (s : Store) : Subscriptions :=
  ⟨s, s.listeners, []⟩

def after (b : Subscriptions) : Event → Subscriptions
  | .subscribe l => ⟨b.store.subscribe l, b.given ++ [l], b.spent⟩
  | .release handle =>
      match b.given[handle]? with
      | none => b
      | some l => ⟨b.store.unsubscribe l, b.given, b.spent ++ [handle]⟩
  | .commit p ids => { b with store := { b.store with project := p, ids } }

def run (b : Subscriptions) (events : List Event) : Subscriptions :=
  events.foldl after b

/-- The subscriptions whose handles have not been called, in order: their listeners and handles. -/
def standing (b : Subscriptions) : List (Listener × Nat) :=
  b.given.zipIdx.filter (·.2 ∉ b.spent)

/-- The listeners of the standing subscriptions, in order. -/
def listening (b : Subscriptions) : List Listener :=
  b.standing.map Prod.fst

/-- A handle that counts is called in its turn: its listener has no standing subscription, or this
one is the earliest. -/
def InTurn (counts : Listener → Bool) (b : Subscriptions) : Event → Prop
  | .release handle => ∀ l ∈ b.given[handle]?, counts l = true →
      ∀ x ∈ b.standing.find? (·.1 = l), x.2 = handle
  | _ => True

/-- All handles that count are called in their turn. -/
def Orderly (counts : Listener → Bool) : Subscriptions → List Event → Prop
  | _, [] => True
  | b, event :: later => b.InTurn counts event ∧ Orderly counts (b.after event) later

instance (counts : Listener → Bool) (b : Subscriptions) :
    (event : Event) → Decidable (b.InTurn counts event)
  | .subscribe _ => instDecidableTrue
  | .release handle => inferInstanceAs (Decidable (∀ l ∈ b.given[handle]?, counts l = true →
      ∀ x ∈ b.standing.find? (·.1 = l), x.2 = handle))
  | .commit _ _ => instDecidableTrue

instance decidableOrderly (counts : Listener → Bool) :
    (b : Subscriptions) → (events : List Event) → Decidable (Orderly counts b events)
  | _, [] => instDecidableTrue
  | b, event :: later =>
      have := decidableOrderly counts (b.after event) later
      inferInstanceAs (Decidable (b.InTurn counts event ∧ Orderly counts (b.after event) later))

variable {b : Subscriptions} {counts : Listener → Bool} {l : Listener} {handle : Nat}

theorem after_release (h : b.given[handle]? = some l) :
    b.after (.release handle) = ⟨b.store.unsubscribe l, b.given, b.spent ++ [handle]⟩ := by
  rw [after, h]

theorem after_release_of_none (h : b.given[handle]? = none) : b.after (.release handle) = b := by
  rw [after, h]

/-! ## What always holds -/

/-- The store calls only those who subscribed, in order and at most once for each subscription, and
no handle is called that was not given. -/
structure IsSound (b : Subscriptions) : Prop where
  inOrder : b.store.listeners.Sublist b.given
  spent : ∀ handle ∈ b.spent, handle < b.given.length

theorem isSound_ofStore (s : Store) : (ofStore s).IsSound :=
  ⟨List.Sublist.refl _, nofun⟩

theorem IsSound.after (h : b.IsSound) (event : Event) : (b.after event).IsSound := by
  cases event with
  | subscribe l =>
      refine ⟨h.inOrder.append_right [l], fun k hk => ?_⟩
      exact Nat.lt_of_lt_of_le (h.spent k hk) (List.sublist_append_left b.given [l]).length_le
  | release handle =>
      cases hgiven : b.given[handle]? with
      | none => rwa [after_release_of_none hgiven]
      | some l =>
          rw [after_release hgiven]
          refine ⟨List.erase_sublist.trans h.inOrder, fun k hk => ?_⟩
          rcases List.mem_append.1 hk with hk | hk
          · exact h.spent k hk
          · rw [List.mem_singleton.1 hk]
            exact (List.getElem?_eq_some_iff.1 hgiven).1
  | commit p ids => exact ⟨h.inOrder, h.spent⟩

theorem IsSound.run (h : b.IsSound) (events : List Event) : (b.run events).IsSound := by
  induction events generalizing b with
  | nil => exact h
  | cons event events ih => exact ih (h.after event)

/-! ## Calling a handle -/

theorem standing_release (h : b.given[handle]? = some l) :
    (b.after (.release handle)).standing = b.standing.filter (·.2 ≠ handle) := by
  rw [after_release h, standing, standing, List.filter_filter]
  congr 1
  funext x
  simp [and_comm]

theorem fst_of_standing (h : b.given[handle]? = some l) :
    ∀ x ∈ b.standing, x.2 = handle → x.1 = l := by
  intro x hx hhandle
  have hgiven := List.mem_zipIdx_iff_getElem?.1 (List.mem_of_mem_filter hx)
  rw [hhandle, h] at hgiven
  exact (Option.some.inj hgiven).symm

theorem nodup_standing (b : Subscriptions) : (b.standing.map Prod.snd).Nodup := by
  have hall : (b.given.zipIdx.map Prod.snd).Nodup := by
    rw [List.zipIdx_map_snd]
    exact List.nodup_range'
  exact hall.sublist (List.filter_sublist.map _)

/-- Dropping the pair with a given number drops the first pair with a given listener, if that is the
one. -/
theorem map_filter_ne {xs : List (Listener × Nat)} (hnodup : (xs.map Prod.snd).Nodup)
    (hsame : ∀ x ∈ xs, x.2 = handle → x.1 = l) (hfirst : ∀ x ∈ xs.find? (·.1 = l), x.2 = handle) :
    (xs.filter (·.2 ≠ handle)).map Prod.fst = (xs.map Prod.fst).erase l := by
  induction xs with
  | nil => rfl
  | cons x xs ih =>
      rw [List.map_cons, List.nodup_cons] at hnodup
      rw [List.forall_mem_cons] at hsame
      by_cases hx : x.1 = l
      · have hfound : (x :: xs).find? (·.1 = l) = some x :=
          List.find?_cons_of_pos (by simpa using hx)
        have hhandle : x.2 = handle := hfirst x hfound
        -- numbers do not repeat, so only this pair goes
        have hrest : xs.filter (·.2 ≠ handle) = xs := by
          refine List.filter_eq_self.2 fun y hy => decide_eq_true fun hsame => ?_
          exact hnodup.1 (List.mem_map.2 ⟨y, hy, hsame.trans hhandle.symm⟩)
        rw [List.filter_cons_of_neg (by simpa using hhandle), hrest, List.map_cons, hx,
          List.erase_cons_head]
      · have hother : x.2 ≠ handle := fun hhandle => hx (hsame.1 hhandle)
        rw [List.find?_cons_of_neg (by simpa using hx)] at hfirst
        rw [List.filter_cons_of_pos (by simpa using hother), List.map_cons, List.map_cons,
          List.erase_cons_tail (by simpa using hx), ih hnodup.2 hsame.2 hfirst]

/-- A handle that does not count takes back no subscription that does. -/
theorem filter_listening_release (h : b.given[handle]? = some l) (hcounts : counts l = false) :
    (b.after (.release handle)).listening.filter counts = b.listening.filter counts := by
  rw [listening, listening, standing_release h, List.filter_map, List.filter_map,
    List.filter_filter]
  congr 1
  refine List.filter_congr fun x hx => ?_
  by_cases hhandle : x.2 = handle
  · rw [Function.comp, fst_of_standing h x hx hhandle, hcounts]
    rfl
  · simp [hhandle]

/-! ## Who is called -/

/-- The store calls those who are listening, of those that count. -/
def Agrees (counts : Listener → Bool) (b : Subscriptions) : Prop :=
  b.store.listeners.filter counts = b.listening.filter counts

theorem listening_ofStore (s : Store) : (ofStore s).listening = s.listeners := by
  rw [listening, standing, List.filter_eq_self.2 (by simp [ofStore])]
  exact List.zipIdx_map_fst 0 _

theorem listening_subscribe (h : b.IsSound) (l : Listener) :
    (b.after (.subscribe l)).listening = b.listening ++ [l] := by
  have hnew : b.given.length ∉ b.spent := fun hmem => Nat.lt_irrefl _ (h.spent _ hmem)
  rw [listening, standing, after, List.zipIdx_append, List.filter_append, List.map_append]
  simp [listening, standing, hnew]

theorem Agrees.after (h : b.Agrees counts) (hsound : b.IsSound) {event : Event}
    (hturn : b.InTurn counts event) : (b.after event).Agrees counts := by
  cases event with
  | subscribe l =>
      rw [Agrees, listening_subscribe hsound, List.filter_append, ← h, ← List.filter_append]
      rfl
  | release handle =>
      cases hgiven : b.given[handle]? with
      | none => rwa [after_release_of_none hgiven]
      | some l =>
          have hstore : (b.after (.release handle)).store.listeners =
              b.store.listeners.erase l := by
            rw [after_release hgiven]
            rfl
          rw [Agrees, hstore, ← List.erase_filter, h]
          cases hcounts : counts l with
          | true =>
              -- the entry that the store drops is the one of the handle, because it is the first
              have hlistening : (b.after (.release handle)).listening = b.listening.erase l := by
                rw [listening, standing_release hgiven]
                exact map_filter_ne b.nodup_standing (fst_of_standing hgiven)
                  (hturn l hgiven hcounts)
              rw [hlistening, List.erase_filter]
          | false =>
              -- whatever entry is dropped, it is none of those that count
              rw [filter_listening_release hgiven hcounts]
              refine List.erase_of_not_mem fun hmem => ?_
              rw [(List.mem_filter.1 hmem).2] at hcounts
              cases hcounts
  | commit p ids => exact h

theorem Agrees.run (h : b.Agrees counts) (hsound : b.IsSound) {events : List Event}
    (horderly : Orderly counts b events) : (b.run events).Agrees counts := by
  induction events generalizing b with
  | nil => exact h
  | cons event events ih => exact ih (h.after hsound horderly.1) (hsound.after event) horderly.2

/-! ## Commits -/

/-- What listeners do that want to be called once: each of them calls a handle of its own. -/
theorem run_afterCalls {ls : List Listener} (h : ∀ l ∈ ls, l ∈ b.given) :
    (b.run ((ls.filter Listener.isOnce).map fun l => .release (b.given.idxOf l))).store =
      { b.store with listeners := Store.afterCalls ls b.store.listeners } := by
  induction ls generalizing b with
  | nil => rfl
  | cons l ls ih =>
      rw [List.forall_mem_cons] at h
      rw [Store.afterCalls, List.foldl_cons, ← Store.afterCalls]
      by_cases honce : l.isOnce = true
      · rw [List.filter_cons_of_pos honce, List.map_cons, run, List.foldl_cons, ← run,
          after_release (List.getElem?_idxOf h.1), if_pos honce]
        exact ih h.2
      · rw [List.filter_cons_of_neg honce, if_neg honce]
        exact ih h.2

/-- An edit puts one project in place and calls the listeners, or it calls nobody. -/
theorem perform_cases {α : Type} (s : Store) (edit : Edit α) :
    (s.perform edit).announced = [] ∨ ∃ p ids, (s.perform edit).announced = [⟨p, s.listeners⟩] ∧
      (s.perform edit).store = (Store.commit { s with ids } p).1 := by
  rw [Store.perform]
  split
  · exact .inl rfl
  · exact .inl rfl
  · exact .inr ⟨_, _, rfl, rfl⟩

/-- After any run, a commit calls only listeners that were given handles, in order and at most once
for each handle.  It calls exactly those of the standing subscriptions, once for each, as far as
the handles of the listeners that count were called in their turn.  What the commit leaves, with
those gone that want to be called once, is reached by a run again. -/
theorem commit_calls_standing {α : Type} (s : Store) (events : List Event) {b : Subscriptions}
    (hrun : (ofStore s).run events = b) (edit : Edit α) {a : Announcement}
    (ha : a ∈ (b.store.perform edit).announced) :
    a.called.Sublist b.given ∧
    (∀ counts, Orderly counts (ofStore s) events →
      a.called.filter counts = b.listening.filter counts) ∧
    ∃ (ids : IdSupply) (handles : List Nat), (b.store.perform edit).store =
      (b.run (.commit a.project ids :: handles.map .release)).store := by
  have hsound : b.IsSound := hrun ▸ (isSound_ofStore s).run events
  obtain hnone | ⟨p, ids, hannounced, hstore⟩ := perform_cases b.store edit
  · rw [hnone] at ha
    cases ha
  rw [hannounced, List.mem_singleton] at ha
  subst ha
  refine ⟨hsound.inOrder, fun counts horderly => ?_, ids, ?_⟩
  · have hstart : (ofStore s).Agrees counts := by
      rw [Agrees, listening_ofStore]
      rfl
    exact hrun ▸ hstart.run (isSound_ofStore s) horderly
  · -- which of its handles a listener calls makes no difference to the store
    refine ⟨(b.store.listeners.filter Listener.isOnce).map b.given.idxOf, ?_⟩
    have hplaced := run_afterCalls (b := b.after (.commit p ids)) hsound.inOrder.subset
    rw [hstore, List.map_map]
    exact hplaced.symm

/-- A watcher that subscribed twice, another one in between, takes its earlier subscription back,
and the other one its only one. -/
theorem commit_calls_standing_twice :
    ∃ a ∈ (((ofStore (.empty "shop" "MySQL" {})).run [.subscribe (.watcher "a" false),
        .subscribe (.watcher "b" false), .subscribe (.watcher "a" false), .release 0, .release 1]
      ).store.execute (.addTable "orders" [])).announced, a.called = [.watcher "a" false] := by
  refine (List.exists_mem_of_length_pos ?_).imp fun a ha => ⟨ha, ?_⟩
  · decide +kernel
  have hcalled := (commit_calls_standing _ _ rfl _ ha).2.1 (fun _ => true) (by decide +kernel)
  rw [List.filter_true] at hcalled
  rw [hcalled]
  decide +kernel

/-- When it takes its later subscription back, twice, nobody is called although the earlier one
stands. -/
theorem commit_loses_subscription :
    ∃ b, (ofStore (.empty "shop" "MySQL" {})).run [.subscribe (.watcher "a" false),
        .subscribe (.watcher "a" false), .release 1, .release 1] = b ∧
      b.listening = [.watcher "a" false] ∧
      (b.store.execute (.addTable "orders" [])).announced.map Announcement.called = [[]] :=
  ⟨_, rfl, by decide +kernel, by decide +kernel⟩

end Subscriptions

end SchemaDesk

import Mathlib.Data.List.Nodup
import VynxDesk.Lib.Run

/-!
# Snapshots of a service

The subscribers of a service of `server/service.rs`, those that wait for a snapshot apart from those
that regular messages go to.  The callback of a snapshot sends any number of messages to the first,
and they join the second when its `ServiceSwap` is dropped, whatever the callback returns.  No id is
ever in both, and whoever a regular message reaches has been through the end of a callback since they
subscribed, with all of its messages if they subscribed before the first (`System.orderly_of_run`).
-/

namespace VynxDesk.ServiceTmpl

variable {α Msg : Type*}

/-- `Subscriber`: its `id()`, and all that was given to its `send`, the oldest first. -/
structure Subscriber (α : Type*) where
  id : BitVec 32
  received : List α := []
  deriving DecidableEq, Repr

/-- `ServiceInner`. -/
structure ServiceInner (α : Type*) where
  subscribes : List (Subscriber α) := []
  newSubscribes : List (Subscriber α) := []
  needSnapshot : Bool := false
  deriving DecidableEq, Repr

namespace Subscriber

/-- `send`. -/
def send (msg : α) (sub : Subscriber α) : Subscriber α :=
  { sub with received := sub.received ++ [msg] }

@[simp]
theorem id_send (msg : α) (sub : Subscriber α) :
  (sub.send msg).id = sub.id
  := rfl

/-- The ids of a map of subscribers. -/
def ids (subs : List (Subscriber α)) : List (BitVec 32) := subs.map id

/-- `remove` of a map of subscribers. -/
def remove (id : BitVec 32) (subs : List (Subscriber α)) : List (Subscriber α) :=
  subs.filter (·.id ≠ id)

/-- `insert` of a map of subscribers. -/
def insert (subs : List (Subscriber α)) (sub : Subscriber α) : List (Subscriber α) :=
  remove sub.id subs ++ [sub]

variable {subs : List (Subscriber α)} {sub : Subscriber α}

theorem mem_ids {id : BitVec 32} :
  id ∈ ids subs ↔ ∃ sub ∈ subs, sub.id = id
  := List.mem_map

theorem mem_remove {id : BitVec 32} :
  sub ∈ remove id subs ↔ sub ∈ subs ∧ sub.id ≠ id
  := by simp [remove]

theorem mem_insert {new : Subscriber α} :
  sub ∈ insert subs new ↔ (sub ∈ subs ∧ sub.id ≠ new.id) ∨ sub = new
  := by simp [insert, mem_remove]

theorem ids_remove_sublist (id : BitVec 32) (subs : List (Subscriber α)) :
  (ids (remove id subs)).Sublist (ids subs)
  := List.filter_sublist.map _

theorem nodup_insert (hnodup : (ids subs).Nodup) (new : Subscriber α) :
  (ids (insert subs new)).Nodup
  := by
  have hrest := hnodup.sublist (ids_remove_sublist new.id subs)
  rw [ids, insert] at *
  rw [List.map_append, List.nodup_append]
  use hrest
  constructor
  · simp
  · intro id hid id' hid'
    obtain ⟨sub, hsub, rfl⟩ := List.mem_map.mp hid
    obtain rfl : id' = new.id := by simpa using hid'
    exact (mem_remove.mp hsub).2

/-- What is in a map after all of another map was inserted was in one of them. -/
theorem mem_of_mem_foldl_insert (news : List (Subscriber α)) :
  ∀ {subs : List (Subscriber α)}, sub ∈ news.foldl insert subs → sub ∈ subs ∨ sub ∈ news
  := by
  induction news with
  | nil =>
      intro subs hsub
      exact .inl hsub
  | cons new news ih =>
      intro subs hsub
      rcases ih hsub with hsub | hsub
      · rcases mem_insert.mp hsub with ⟨hsub, -⟩ | rfl
        · exact .inl hsub
        · apply Or.inr List.mem_cons_self
      · apply Or.inr (List.mem_cons_of_mem _ hsub)

end Subscriber

namespace ServiceInner

open Subscriber

/-- `is_subed`. -/
def isSubed (id : BitVec 32) (inner : ServiceInner α) : Bool :=
  id ∈ ids inner.subscribes || id ∈ ids inner.newSubscribes

/-- `on_subscribe`. -/
def onSubscribe (id : BitVec 32) (inner : ServiceInner α) : ServiceInner α :=
  if id ∈ ids inner.subscribes then inner
  else if inner.needSnapshot then
    { inner with newSubscribes := insert inner.newSubscribes { id := id } }
  else { inner with subscribes := insert inner.subscribes { id := id } }

/-- `on_unsubscribe`. -/
def onUnsubscribe (id : BitVec 32) (inner : ServiceInner α) : ServiceInner α :=
  if id ∈ ids inner.subscribes then { inner with subscribes := remove id inner.subscribes }
  else { inner with newSubscribes := remove id inner.newSubscribes }

/-- `send_new_subscribes`. -/
def sendNewSubscribes (msg : α) (inner : ServiceInner α) : ServiceInner α :=
  { inner with newSubscribes := inner.newSubscribes.map (send msg) }

/-- `swap_new_subscribes`. -/
def swapNewSubscribes (inner : ServiceInner α) : ServiceInner α :=
  { inner with
    subscribes := inner.newSubscribes.foldl insert inner.subscribes
    newSubscribes := [] }

/-- The loop of the functions that send: a message for the subscribers whose id is chosen. -/
def sendWhere (chosen : BitVec 32 → Bool) (msg : α) (inner : ServiceInner α) : ServiceInner α :=
  { inner with
    subscribes := inner.subscribes.map fun sub => if chosen sub.id then sub.send msg else sub }

/-- All subscribers of both maps. -/
def everyone (inner : ServiceInner α) : List (Subscriber α) :=
  inner.subscribes ++ inner.newSubscribes

/-- `send_to`. -/
def sendTo (id : BitVec 32) (msg : α) (inner : ServiceInner α) : ServiceInner α :=
  inner.sendWhere (· = id) msg

/-- `send_to_others`. -/
def sendToOthers (id : BitVec 32) (msg : α) (inner : ServiceInner α) : ServiceInner α :=
  inner.sendWhere (· ≠ id) msg

/-- `send_shared`. -/
def sendShared (msg : α) (inner : ServiceInner α) : ServiceInner α :=
  inner.sendWhere (fun _ => true) msg

/-- `send_video_frame_shared`. -/
def sendVideoFrameShared (msg : α) (inner : ServiceInner α) :
    List (BitVec 32) × ServiceInner α :=
  (ids inner.subscribes, inner.sendWhere (fun _ => true) msg)

/-- `send_without`. -/
def sendWithout (sub : BitVec 32) (msg : α) (inner : ServiceInner α) : ServiceInner α :=
  inner.sendWhere (sub ≠ ·) msg

end ServiceInner

/-- The functions that send a regular message. -/
inductive SendCall where
  | sendShared
  | sendTo (id : BitVec 32)
  | sendToOthers (id : BitVec 32)
  | sendVideoFrameShared
  | sendWithout (sub : BitVec 32)
  deriving DecidableEq, Repr

namespace SendCall

/-- The service after a call. -/
def run (msg : α) (inner : ServiceInner α) : SendCall → ServiceInner α
  | sendShared => inner.sendShared msg
  | sendTo id => inner.sendTo id msg
  | sendToOthers id => inner.sendToOthers id msg
  | sendVideoFrameShared => (inner.sendVideoFrameShared msg).2
  | sendWithout sub => inner.sendWithout sub msg

/-- Every call sends to some of the subscribers. -/
theorem run_eq_sendWhere (msg : α) (inner : ServiceInner α) (call : SendCall) :
  ∃ chosen, call.run msg inner = inner.sendWhere chosen msg
  := by
  cases call with
  | sendShared => use fun _ => true; rfl
  | sendTo id => use (· = id); rfl
  | sendToOthers id => use (· ≠ id); rfl
  | sendVideoFrameShared => use fun _ => true; rfl
  | sendWithout sub => use (sub ≠ ·); rfl

end SendCall

/-- What a subscriber is sent: a message of the callback that is `callback`-th to begin, or a regular
message. -/
inductive Sent (Msg : Type*) where
  | snapshot (callback : ℕ) (msg : Msg)
  | regular (msg : Msg)
  deriving DecidableEq, Repr

/-- The message, if it is of the callback. -/
def Sent.ofCallback (n : ℕ) : Sent Msg → Option Msg
  | snapshot callback msg => if callback = n then some msg else none
  | regular _ => none

/-- The messages of a callback that a subscriber has received. -/
def Subscriber.snapshotMessages (n : ℕ) (sub : Subscriber (Sent Msg)) : List Msg :=
  sub.received.filterMap (Sent.ofCallback n)

/-- A moment of a run: the callbacks that have ended, and the messages that the callback under way has
sent. -/
structure Moment where
  callbacks : ℕ := 0
  messages : ℕ := 0
  deriving DecidableEq, Repr

/-- A service with its history: what the callback under way has sent, what each callback that has
ended had sent and whether it returned `Ok`, and when each id subscribed last. -/
structure System (Msg : Type*) where
  inner : ServiceInner (Sent Msg)
  callback : Option (List Msg) := none
  finished : List (List Msg × Bool) := []
  since : BitVec 32 → Moment := fun _ => {}

/-- What happens to a service. -/
inductive Event (Msg : Type*) where
  | onSubscribe (id : BitVec 32)
  | onUnsubscribe (id : BitVec 32)
  | isSubed (id : BitVec 32) (answer : Bool)
  | snapshot
  | swapSend (msg : Msg)
  | drop (ok : Bool)
  | send (call : SendCall) (msg : Msg)
  deriving DecidableEq, Repr

namespace System

open Subscriber

/-- `new`. -/
def new (needSnapshot : Bool) : System Msg := { inner := { needSnapshot := needSnapshot } }

/-- The present moment. -/
def now (s : System Msg) : Moment := ⟨s.finished.length, (s.callback.getD []).length⟩

/-- `on_subscribe`, which is a subscription unless the id is among the subscribers. -/
def onSubscribe (id : BitVec 32) (s : System Msg) : System Msg :=
  { s with
    inner := s.inner.onSubscribe id
    since := if id ∈ ids s.inner.subscribes then s.since else Function.update s.since id s.now }

/-- `ServiceSwap::send_shared`, by a callback that has sent `sent`. -/
def swapSend (sent : List Msg) (msg : Msg) (s : System Msg) : System Msg :=
  { s with
    inner := s.inner.sendNewSubscribes (.snapshot s.finished.length msg)
    callback := some (sent ++ [msg]) }

/-- `ServiceSwap::drop`, at the end of a callback that has sent `sent`. -/
def drop (sent : List Msg) (ok : Bool) (s : System Msg) : System Msg :=
  { s with
    inner := s.inner.swapNewSubscribes
    callback := none
    finished := s.finished ++ [(sent, ok)] }

/-- A step of a service: its threads take its lock in any order. -/
inductive Step : System Msg → Event Msg → System Msg → Prop where
  | onSubscribe (s : System Msg) (id : BitVec 32) :
      Step s (.onSubscribe id) (s.onSubscribe id)
  | onUnsubscribe (s : System Msg) (id : BitVec 32) :
      Step s (.onUnsubscribe id) { s with inner := s.inner.onUnsubscribe id }
  | isSubed (s : System Msg) (id : BitVec 32) :
      Step s (.isSubed id (s.inner.isSubed id)) s
  | snapshot {s : System Msg} (hnew : s.inner.newSubscribes ≠ []) (hidle : s.callback = none) :
      Step s .snapshot { s with callback := some [] }
  | swapSend {s : System Msg} {sent : List Msg} (hsent : s.callback = some sent) (msg : Msg) :
      Step s (.swapSend msg) (s.swapSend sent msg)
  | drop {s : System Msg} {sent : List Msg} (hsent : s.callback = some sent) (ok : Bool) :
      Step s (.drop ok) (s.drop sent ok)
  | send (s : System Msg) (call : SendCall) (msg : Msg) :
      Step s (.send call msg) { s with inner := call.run (.regular msg) s.inner }

/-- Since its latest subscription a callback has ended, and if the subscription was before its first
message, the subscriber has received all of its messages. -/
def Swapped (s : System Msg) (sub : Subscriber (Sent Msg)) : Prop :=
  ∃ n sent ok, (s.since sub.id).callbacks ≤ n ∧ s.finished[n]? = some (sent, ok)
    ∧ ((s.since sub.id).messages = 0 → sub.snapshotMessages n = sent)

/-- The service keeps its subscribers in order: no id is in both maps, one that unsubscribes is in
neither, and whoever a regular message reaches has the property `Fit`. -/
structure Orderly (Fit : System Msg → Subscriber (Sent Msg) → Prop) (s : System Msg) : Prop where
  apart : ∀ id ∈ ids s.inner.subscribes, id ∉ ids s.inner.newSubscribes
  gone : ∀ id s', Step s (.onUnsubscribe id) s' → s'.inner.isSubed id = false
  fit : ∀ call msg s', Step s (.send call msg) s' →
    ∀ sub ∈ s.inner.everyone, sub.send (.regular msg) ∈ s'.inner.everyone → Fit s sub

/-- What every step keeps: who waits has received what the callback under way has sent since they
subscribed, and who is among the subscribers was swapped. -/
structure Invariant (s : System Msg) : Prop where
  needSnapshot : s.inner.needSnapshot = true
  nodup : (ids s.inner.newSubscribes).Nodup
  apart : ∀ id ∈ ids s.inner.subscribes, id ∉ ids s.inner.newSubscribes
  waiting : ∀ sub ∈ s.inner.newSubscribes, (s.since sub.id).callbacks = s.finished.length
    ∧ (s.since sub.id).messages ≤ (s.callback.getD []).length
    ∧ sub.snapshotMessages s.finished.length
      = (s.callback.getD []).drop (s.since sub.id).messages
  swapped : ∀ sub ∈ s.inner.subscribes, s.Swapped sub

theorem snapshotMessages_send_snapshot (n : ℕ) (msg : Msg) (sub : Subscriber (Sent Msg)) :
  (sub.send (.snapshot n msg)).snapshotMessages n = sub.snapshotMessages n ++ [msg]
  := by simp [snapshotMessages, Subscriber.send, Sent.ofCallback]

theorem snapshotMessages_send_regular (n : ℕ) (msg : Msg) (sub : Subscriber (Sent Msg)) :
  (sub.send (.regular msg)).snapshotMessages n = sub.snapshotMessages n
  := by simp [snapshotMessages, Subscriber.send, Sent.ofCallback]

variable {s : System Msg}

/-- Who was swapped stays so. -/
theorem Swapped.of_same {s' : System Msg} {sub sub' : Subscriber (Sent Msg)}
    (hswapped : s.Swapped sub) (hid : sub'.id = sub.id)
    (hsince : s'.since sub.id = s.since sub.id) (hfinished : s.finished <+: s'.finished)
    (hmessages : ∀ n, sub'.snapshotMessages n = sub.snapshotMessages n) :
  s'.Swapped sub'
  := by
  obtain ⟨n, sent, ok, hn, hdone, hall⟩ := hswapped
  use n, sent, ok
  rw [hid, hsince, hmessages]
  constructor
  · exact hn
  · obtain ⟨later, hlater⟩ := hfinished
    rw [← hlater, List.getElem?_append_left (List.getElem?_eq_some_iff.mp hdone).1]
    use hdone

theorem Invariant.new :
  Invariant (System.new true : System Msg)
  := by
  constructor
  · rfl
  all_goals simp [System.new, ids]

/-- A subscription keeps the invariant. -/
theorem Invariant.onSubscribe (hinv : Invariant s) (id : BitVec 32) :
  Invariant (s.onSubscribe id)
  := by
  rw [System.onSubscribe, ServiceInner.onSubscribe]
  by_cases hid : id ∈ ids s.inner.subscribes
  · rw [if_pos hid, if_pos hid]
    exact hinv
  · rw [if_neg hid, if_neg hid, if_pos hinv.needSnapshot]
    constructor
    · exact hinv.needSnapshot
    · apply nodup_insert hinv.nodup
    · intro id' hid' hnew
      obtain ⟨sub, hsub, rfl⟩ := mem_ids.mp hnew
      rcases mem_insert.mp hsub with ⟨hsub, -⟩ | rfl
      · apply hinv.apart _ hid' (mem_ids.mpr ⟨sub, hsub, rfl⟩)
      · exact hid hid'
    · intro sub hsub
      rcases mem_insert.mp hsub with ⟨hsub, hne⟩ | rfl
      · dsimp only
        rw [Function.update_of_ne hne]
        apply hinv.waiting sub hsub
      · simp [now, snapshotMessages]
    · intro sub hsub
      have hne : sub.id ≠ id := by
        rintro rfl
        exact hid (mem_ids.mpr ⟨sub, hsub, rfl⟩)
      apply Swapped.of_same (hinv.swapped sub hsub)
      · rfl
      · apply Function.update_of_ne hne
      · apply List.prefix_refl
      · intro n
        rfl

/-- Leaving keeps the invariant. -/
theorem Invariant.onUnsubscribe (hinv : Invariant s) (id : BitVec 32) :
  Invariant { s with inner := s.inner.onUnsubscribe id }
  := by
  rw [ServiceInner.onUnsubscribe]
  split
  · constructor
    · exact hinv.needSnapshot
    · exact hinv.nodup
    · intro id' hid'
      apply hinv.apart id' ((ids_remove_sublist _ _).subset hid')
    · exact hinv.waiting
    · intro sub hsub
      apply (hinv.swapped sub (mem_remove.mp hsub).1)
  · constructor
    · exact hinv.needSnapshot
    · apply hinv.nodup.sublist (ids_remove_sublist _ _)
    · intro id' hid' hnew
      apply hinv.apart id' hid' ((ids_remove_sublist _ _).subset hnew)
    · intro sub hsub
      apply hinv.waiting sub (mem_remove.mp hsub).1
    · exact hinv.swapped

/-- The beginning of a callback keeps the invariant. -/
theorem Invariant.snapshot (hinv : Invariant s) (hidle : s.callback = none) :
  Invariant { s with callback := some [] }
  := by
  have hwaiting := hinv.waiting
  rw [hidle] at hwaiting
  exact ⟨hinv.needSnapshot, hinv.nodup, hinv.apart, hwaiting, hinv.swapped⟩

/-- A message of the callback keeps the invariant. -/
theorem Invariant.swapSend {sent : List Msg} (hinv : Invariant s) (hsent : s.callback = some sent)
    (msg : Msg) :
  Invariant (s.swapSend sent msg)
  := by
  have hids : ids (s.swapSend sent msg).inner.newSubscribes = ids s.inner.newSubscribes := by
    apply List.map_map.trans
    rfl
  constructor
  · exact hinv.needSnapshot
  · rw [hids]
    exact hinv.nodup
  · rw [hids]
    exact hinv.apart
  · intro sub' hsub'
    obtain ⟨sub, hsub, rfl⟩ := List.mem_map.mp hsub'
    obtain ⟨hcallbacks, hmessages, hreceived⟩ := hinv.waiting sub hsub
    rw [hsent] at hmessages hreceived
    dsimp only [Option.getD_some] at hmessages hreceived
    use hcallbacks
    constructor
    · apply Nat.le_trans hmessages
      simp [System.swapSend]
    · change (sub.send (.snapshot s.finished.length msg)).snapshotMessages s.finished.length
        = (sent ++ [msg]).drop (s.since sub.id).messages
      rw [snapshotMessages_send_snapshot, hreceived, List.drop_append_of_le_length hmessages]
  · exact hinv.swapped

/-- The end of a callback keeps the invariant. -/
theorem Invariant.drop {sent : List Msg} (hinv : Invariant s) (hsent : s.callback = some sent)
    (ok : Bool) :
  Invariant (s.drop sent ok)
  := by
  constructor
  · exact hinv.needSnapshot
  · apply List.nodup_nil
  · intro _ _
    apply List.not_mem_nil
  · intro _ hsub
    exact absurd hsub List.not_mem_nil
  · intro sub hsub
    rcases mem_of_mem_foldl_insert _ hsub with hold | hnew
    · apply Swapped.of_same (hinv.swapped sub hold)
      · rfl
      · rfl
      · apply List.prefix_append
      · intro n
        rfl
    · obtain ⟨hcallbacks, -, hreceived⟩ := hinv.waiting sub hnew
      use s.finished.length, sent, ok, Nat.le_of_eq hcallbacks
      constructor
      · apply List.getElem?_concat_length
      · intro hfirst
        change (s.since sub.id).messages = 0 at hfirst
        rw [hreceived, hfirst, hsent]
        rfl

/-- A regular message keeps the invariant. -/
theorem Invariant.send (hinv : Invariant s) (call : SendCall) (msg : Msg) :
  Invariant { s with inner := call.run (.regular msg) s.inner }
  := by
  obtain ⟨chosen, hrun⟩ := call.run_eq_sendWhere (.regular msg) s.inner
  rw [hrun]
  have hids : ids (s.inner.sendWhere chosen (.regular msg)).subscribes
      = ids s.inner.subscribes := by
    apply List.map_map.trans
    apply List.map_congr_left
    intro sub _
    dsimp only [Function.comp_apply]
    split <;> rfl
  constructor
  · exact hinv.needSnapshot
  · exact hinv.nodup
  · rw [hids]
    exact hinv.apart
  · exact hinv.waiting
  · intro sub' hsub'
    obtain ⟨sub, hsub, rfl⟩ := List.mem_map.mp hsub'
    have hswapped := hinv.swapped sub hsub
    split
    · apply Swapped.of_same hswapped
      · rfl
      · rfl
      · apply List.prefix_refl
      · intro n
        apply snapshotMessages_send_regular
    · exact hswapped

/-- Every step keeps the invariant. -/
theorem Invariant.step {s' : System Msg} {e : Event Msg} (hinv : Invariant s)
    (hstep : Step s e s') :
  Invariant s'
  := by
  cases hstep with
  | onSubscribe id => apply hinv.onSubscribe id
  | onUnsubscribe id => apply hinv.onUnsubscribe id
  | isSubed id => exact hinv
  | snapshot hnew hidle => apply hinv.snapshot hidle
  | swapSend hsent msg => apply hinv.swapSend hsent msg
  | drop hsent ok => apply hinv.drop hsent ok
  | send call msg => apply hinv.send call msg

/-- Where the invariant holds, the service is in order. -/
theorem Invariant.orderly (hinv : Invariant s) :
  Orderly Swapped s
  := by
  constructor
  · exact hinv.apart
  · intro id s' hstep
    cases hstep
    rw [ServiceInner.onUnsubscribe]
    split
    case isTrue hid =>
      have hsubs : id ∉ ids (remove id s.inner.subscribes) := by
        simp [mem_ids, mem_remove]
      simp [ServiceInner.isSubed, hsubs, hinv.apart id hid]
    case isFalse hid =>
      have hnew : id ∉ ids (remove id s.inner.newSubscribes) := by
        simp [mem_ids, mem_remove]
      simp [ServiceInner.isSubed, hnew, hid]
  · intro call msg s' hstep sub hsub hsend
    rcases List.mem_append.mp hsub with hsub | hnew
    · apply hinv.swapped sub hsub
    · exfalso
      have hinv' := hinv.send call msg
      cases hstep
      obtain ⟨chosen, hrun⟩ := call.run_eq_sendWhere (.regular msg) s.inner
      rw [hrun] at hsend hinv'
      rcases List.mem_append.mp hsend with hsend | hsend
      · apply hinv'.apart sub.id (mem_ids.mpr ⟨_, hsend, rfl⟩) (mem_ids.mpr ⟨sub, hnew, rfl⟩)
      · have hsame := List.inj_on_of_nodup_map hinv.nodup hsend hnew rfl
        have hlength := congrArg (fun sub => sub.received.length) hsame
        simp [Subscriber.send] at hlength

/-- In every state of a run the service is in order, and whoever a regular message reaches was
swapped at the end of a callback whose messages it has. -/
theorem orderly_of_run {h : List (System Msg × Event Msg)} {s : System Msg}
    (hrun : Run Step (new true) h s) :
  Orderly Swapped s
  := by
  suffices hinv : Invariant s from hinv.orderly
  apply hrun.invariant Invariant Invariant.new
  intro s e s' hinv hstep
  apply hinv.step hstep

/-- A service that somebody has subscribed to. -/
def sampleWaiting : System ℕ := (new true).onSubscribe 1

/-- The callback of its snapshot, once it has sent a message. -/
def sampleHalf : System ℕ := { sampleWaiting with callback := some [] }.swapSend [] 7

/-- The steps that lead there. -/
def sampleHistory : List (System ℕ × Event ℕ) :=
  [(new true, .onSubscribe 1), (sampleWaiting, .snapshot),
    ({ sampleWaiting with callback := some [] }, .swapSend 7)]

theorem run_sampleHalf :
  Run Step (new true) sampleHistory sampleHalf
  := by
  have hwaiting : Run Step (new true) _ sampleWaiting := Run.nil.snoc (Step.onSubscribe (new true) 1)
  have hbegun := hwaiting.snoc (Step.snapshot (by decide) rfl)
  exact hbegun.snoc (Step.swapSend rfl 7)

theorem orderly_swapped :
  Orderly Swapped (sampleHalf.drop [7] true)
  := orderly_of_run (run_sampleHalf.snoc (Step.drop rfl true))

/-- Since its latest subscription the subscriber has received the messages of a callback that has
returned `Ok`. -/
def Served (s : System Msg) (sub : Subscriber (Sent Msg)) : Prop :=
  ∃ n, (s.since sub.id).callbacks ≤ n ∧ s.finished[n]? = some (sub.snapshotMessages n, true)

/-- Whoever waits when a callback ends with `Err` is swapped too. -/
theorem not_orderly_served :
  ¬ ∀ (h : List (System ℕ × Event ℕ)) (s : System ℕ), Run Step (new true) h s → Orderly Served s
  := by
  intro h
  have hrun := run_sampleHalf.snoc (Step.drop rfl false)
  obtain ⟨n, -, hdone⟩ := (h _ _ hrun).fit .sendShared 8 _ (Step.send _ _ _)
    { id := 1, received := [.snapshot 0 7] } (by decide) (by decide)
  have hlt := (List.getElem?_eq_some_iff.mp hdone).1
  obtain rfl : n = 0 := by
    simpa [System.drop, sampleHalf, System.swapSend, sampleWaiting, System.onSubscribe, new]
      using hlt
  exact absurd hdone (by decide)

end System

end VynxDesk.ServiceTmpl

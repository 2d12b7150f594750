import Mathlib.Data.List.AList
import Mathlib.Data.Set.Lattice
import VynxDesk.Connection.Loop
import VynxDesk.Server.Snapshot

/-!
# Choosing the displays to capture

A peer chooses the displays that it sees with three lists: displays to add, to take away and to set.
`Connection::capture_displays` hands the first list that is not empty to the server, which goes
through its services.  Adding and setting do what they say; taking away leaves exactly the displays
that the peer wants to be rid of (`captureDisplaysOf_asAsked_iff`).
-/

namespace VynxDesk

/-! ### Names -/

/-- `service_name_prefix`. -/
def VideoSource.serviceNamePrefix : VideoSource → String
  | .monitor => "monitor"
  | .camera => "camera"

/-- `get_service_name` of the video services. -/
def VideoSource.getServiceName (source : VideoSource) (idx : ℕ) : String :=
  source.serviceNamePrefix ++ toString idx

/-- `NAME_WINDOW_FOCUS`. -/
def Host.nameWindowFocus (h : Host) : String := if h.desktop then "window_focus" else ""

/-- `Server::is_video_service_name`. -/
def isVideoServiceName (name : String) : Bool :=
  VideoSource.monitor.serviceNamePrefix.toList.isPrefixOf name.toList
    || VideoSource.camera.serviceNamePrefix.toList.isPrefixOf name.toList

theorem isVideoServiceName_getServiceName (source : VideoSource) (idx : ℕ) :
  isVideoServiceName (source.getServiceName idx) = true
  := by
  rw [isVideoServiceName, VideoSource.getServiceName, String.toList_append]
  cases source with
  | monitor => rfl
  | camera => rfl

/-- A video service has one name. -/
theorem getServiceName_inj {source source' : VideoSource} {idx idx' : ℕ} :
  source.getServiceName idx = source'.getServiceName idx' ↔ source = source' ∧ idx = idx'
  := by
  constructor
  · intro h
    have hlist := congrArg String.toList h
    simp only [VideoSource.getServiceName, String.toList_append, Nat.toString_eq_repr,
      Nat.toList_repr] at hlist
    have hdigits : source = source' ∧ Nat.toDigits 10 idx = Nat.toDigits 10 idx' := by
      cases source with
      | monitor =>
          cases source' with
          | monitor => simpa using hlist
          | camera => simp [VideoSource.serviceNamePrefix] at hlist
      | camera =>
          cases source' with
          | monitor => simp [VideoSource.serviceNamePrefix] at hlist
          | camera => simpa using hlist
    use hdigits.1
    rw [← Nat.ofDigitChars_ten_toDigits (n := idx), hdigits.2, Nat.ofDigitChars_ten_toDigits]
  · rintro ⟨rfl, rfl⟩
    rfl

theorem not_isVideoServiceName_nameWindowFocus (h : Host) :
  isVideoServiceName h.nameWindowFocus = false
  := by
  rw [Host.nameWindowFocus]
  split <;> decide

/-! ### The services of a server -/

variable {α : Type*}

/-- `ServiceTmpl`: no id is in both of its maps, and nobody waits where no snapshot is needed. -/
structure ServiceTmpl (α : Type*) where
  inner : ServiceTmpl.ServiceInner α
  apart : ∀ id ∈ ServiceTmpl.Subscriber.ids inner.subscribes,
    id ∉ ServiceTmpl.Subscriber.ids inner.newSubscribes
  nobody : inner.needSnapshot = false → inner.newSubscribes = []

namespace ServiceTmpl

open Subscriber

theorem ids_insert (subs : List (Subscriber α)) (sub : Subscriber α) (id : BitVec 32) :
  id ∈ ids (insert subs sub) ↔ id = sub.id ∨ id ∈ ids subs
  := by
  simp only [mem_ids, mem_insert]
  constructor
  · rintro ⟨other, ⟨hother, -⟩ | rfl, rfl⟩
    · exact .inr ⟨other, hother, rfl⟩
    · exact .inl rfl
  · intro h
    by_cases hid : id = sub.id
    · exact ⟨sub, .inr rfl, hid.symm⟩
    · obtain ⟨other, hother, rfl⟩ := h.resolve_left hid
      exact ⟨other, .inl ⟨hother, hid⟩, rfl⟩

theorem ids_remove (subs : List (Subscriber α)) (id id' : BitVec 32) :
  id' ∈ ids (remove id subs) ↔ id' ∈ ids subs ∧ id' ≠ id
  := by
  simp only [mem_ids, mem_remove]
  constructor
  · rintro ⟨sub, ⟨hsub, hne⟩, rfl⟩
    exact ⟨⟨sub, hsub, rfl⟩, hne⟩
  · rintro ⟨⟨sub, hsub, rfl⟩, hne⟩
    exact ⟨sub, ⟨hsub, hne⟩, rfl⟩

/-- A service of a server that runs. -/
def ofRun {Msg : Type*} {h : List (System Msg × Event Msg)} {s : System Msg}
    (hrun : Run System.Step (System.new true) h s) : ServiceTmpl (Sent Msg) where
  inner := s.inner
  apart := (System.orderly_of_run hrun).apart
  nobody hneed := by
    have hinv : s.Invariant := hrun.invariant _ System.Invariant.new fun _ _ _ h => h.step
    rw [hinv.needSnapshot] at hneed
    cases hneed

/-- A new video service, which needs a snapshot. -/
def newVideo : ServiceTmpl α where
  inner := { needSnapshot := true }
  apart := nofun
  nobody := nofun

/-- `is_subed`. -/
def isSubed (id : BitVec 32) (s : ServiceTmpl α) : Bool := s.inner.isSubed id

/-- `on_subscribe`. -/
def onSubscribe (id : BitVec 32) (s : ServiceTmpl α) : ServiceTmpl α where
  inner := s.inner.onSubscribe id
  apart := by
    have hapart := s.apart
    rw [ServiceInner.onSubscribe]
    split
    · exact hapart
    · rename_i hid
      split
      · intro id' hid'
        dsimp only at hid' ⊢
        rw [ids_insert, not_or]
        constructor
        · rintro rfl
          exact hid hid'
        · apply hapart id' hid'
      · rename_i hneed
        rw [s.nobody (by simpa using hneed)]
        intro id' _
        apply List.not_mem_nil
  nobody hneed := by
    rw [ServiceInner.onSubscribe] at hneed ⊢
    split
    · rename_i hid
      rw [if_pos hid] at hneed
      apply s.nobody hneed
    · rename_i hid
      rw [if_neg hid] at hneed
      split
      · rename_i hsnapshot
        rw [if_pos hsnapshot] at hneed
        exact absurd hsnapshot (by simpa using hneed)
      · rename_i hsnapshot
        apply s.nobody (by simpa using hsnapshot)

/-- `on_unsubscribe`. -/
def onUnsubscribe (id : BitVec 32) (s : ServiceTmpl α) : ServiceTmpl α where
  inner := s.inner.onUnsubscribe id
  apart := by
    have hapart := s.apart
    rw [ServiceInner.onUnsubscribe]
    split
    · intro id' hid'
      exact hapart id' ((ids_remove _ _ _).mp hid').1
    · intro id' hid' hnew
      exact hapart id' hid' ((ids_remove _ _ _).mp hnew).1
  nobody hneed := by
    rw [ServiceInner.onUnsubscribe] at hneed ⊢
    split at hneed
    · rename_i hid
      rw [if_pos hid]
      apply s.nobody hneed
    · rename_i hid
      rw [if_neg hid]
      dsimp only
      rw [s.nobody hneed]
      rfl

variable {s : ServiceTmpl α} {id id' : BitVec 32}

theorem isSubed_onSubscribe :
  (s.onSubscribe id).isSubed id' = (decide (id' = id) || s.isSubed id')
  := by
  unfold isSubed onSubscribe ServiceInner.onSubscribe ServiceInner.isSubed
  rw [Bool.eq_iff_iff]
  dsimp only
  split
  · rename_i hid
    by_cases hsame : id' = id
    · subst hsame
      simp [hid]
    · simp [hsame]
  · split
    · simp only [ids_insert, Bool.or_eq_true, decide_eq_true_eq]
      tauto
    · simp only [ids_insert, Bool.or_eq_true, decide_eq_true_eq]
      tauto

theorem isSubed_onUnsubscribe :
  (s.onUnsubscribe id).isSubed id' = (!decide (id' = id) && s.isSubed id')
  := by
  have hapart := s.apart
  unfold isSubed onUnsubscribe ServiceInner.onUnsubscribe ServiceInner.isSubed
  rw [Bool.eq_iff_iff]
  split
  · rename_i hid
    have hnew := hapart id hid
    by_cases hsame : id' = id
    · subst hsame
      simp [ids_remove, hnew]
    · simp [ids_remove, hsame]
  · rename_i hid
    by_cases hsame : id' = id
    · subst hsame
      simp [ids_remove, hid]
    · simp [ids_remove, hsame]

end ServiceTmpl

/-- The order in which a map gives its keys. -/
structure KeyOrder where
  keys : List String → List String
  perm : ∀ names, (keys names).Perm names

/-- The services of a `Server` by their names. -/
structure Server (α : Type*) where
  services : AList fun _ : String => ServiceTmpl α

namespace Server

variable (order : KeyOrder) (id : BitVec 32) (s : Server α)

/-- `contains`. -/
def contains (name : String) : Bool := (s.services.lookup name).isSome

/-- A connection is subscribed to the service with the name. -/
def isSubed (name : String) : Bool := (s.services.lookup name).any (·.isSubed id)

/-- `add_service`. -/
def addService (name : String) (service : ServiceTmpl α) : Server α where
  services := s.services.insert name service

/-- A new video service is added, unless there is one with the name. -/
def addMissing (name : String) : Server α :=
  if s.contains name then s else s.addService name .newVideo

/-- The loop over displays that adds their missing services. -/
def addAllMissing (source : VideoSource) (displays : List ℕ) : Server α :=
  displays.foldl (fun s d => s.addMissing (source.getServiceName d)) s

/-- `subscribe`. -/
def subscribe (name : String) (sub : Bool) : Server α :=
  match s.services.lookup name with
  | some service =>
      if service.isSubed id = sub then s
      else s.addService name (if sub then service.onSubscribe id else service.onUnsubscribe id)
  | none => s

/-- `get_subbed_displays_count`. -/
def getSubbedDisplaysCount : ℕ :=
  s.services.keys.countP fun name => isVideoServiceName name && s.isSubed id name

/-- `capture_displays`. -/
def captureDisplays (source : VideoSource) (displays : List ℕ) (incl excl : Bool) : Server α :=
  let displays := displays.map source.getServiceName
  (order.keys s.services.keys).foldl (fun s name =>
    if isVideoServiceName name then
      if name ∈ displays then if incl then s.subscribe id name true else s
      else if excl then s.subscribe id name false else s
    else s) s

end Server

namespace Conn

/-- The end of `capture_displays`: a peer that sees several displays does not follow the focused
window. -/
def followFocusedWindowOf (h : Host) (c : Conn) (server : Server α) : Conn × Server α :=
  let id := BitVec.ofInt 32 c.id
  let c := c.withBook fun b => { b with multiUiSession := server.getSubbedDisplaysCount id > 1 }
  (c, if c.opts.followRemoteWindow then
      server.subscribe id h.nameWindowFocus (!c.book.multiUiSession)
    else server)

/-- `Connection::capture_displays` on a server with any connections, where the source of the
connection has `sourceCount` displays. -/
def captureDisplaysOf (order : KeyOrder) (h : Host) (sourceCount : ℕ) (add sub set : List ℕ)
    (c : Conn) (server : Server α) : Conn × Server α :=
  let id := BitVec.ofInt 32 c.id
  let source := c.videoSource
  let valid := fun l : List ℕ => l.filter (· < sourceCount)
  if !add.isEmpty && (valid add).isEmpty
      || add.isEmpty && !sub.isEmpty && (valid sub).isEmpty
      || add.isEmpty && sub.isEmpty && !set.isEmpty && (valid set).isEmpty then (c, server)
  else
    let server := (server.addAllMissing source (valid add)).addAllMissing source (valid set)
    c.followFocusedWindowOf h
      (if !add.isEmpty then server.captureDisplays order id source (valid add) true false
        else if !sub.isEmpty then server.captureDisplays order id source (valid sub) false true
        else server.captureDisplays order id source (valid set) true true)

end Conn

/-! ### What the server does -/

namespace Server

variable {order : KeyOrder} {id other : BitVec 32} {s : Server α} {name name' : String}

theorem contains_addService (service : ServiceTmpl α) :
  (s.addService name service).contains name' = (decide (name' = name) || s.contains name')
  := by
  unfold contains addService
  by_cases hname : name' = name
  · subst hname
    rw [AList.lookup_insert]
    simp
  · rw [AList.lookup_insert_ne hname]
    simp [hname]

theorem isSubed_addService (service : ServiceTmpl α) :
  (s.addService name service).isSubed id name'
    = if name' = name then service.isSubed id else s.isSubed id name'
  := by
  unfold isSubed addService
  by_cases hname : name' = name
  · subst hname
    rw [AList.lookup_insert, if_pos rfl]
    rfl
  · rw [AList.lookup_insert_ne hname, if_neg hname]

theorem contains_of_isSubed (h : s.isSubed id name = true) :
  s.contains name = true
  := by
  unfold isSubed at h
  unfold contains
  cases hlookup : s.services.lookup name with
  | none =>
      rw [hlookup] at h
      cases h
  | some service => rfl

/-- Nobody is subscribed to a new service. -/
theorem isSubed_addMissing :
  (s.addMissing name).isSubed id name' = s.isSubed id name'
  := by
  rw [addMissing]
  split
  · rfl
  · rename_i hmissing
    rw [isSubed_addService]
    split
    · rename_i hname
      rw [hname]
      cases hsubed : s.isSubed id name with
      | true => exact absurd (contains_of_isSubed hsubed) hmissing
      | false => rfl
    · rfl

theorem contains_addMissing :
  (s.addMissing name).contains name' = (decide (name' = name) || s.contains name')
  := by
  rw [addMissing]
  split
  · rename_i hcontains
    by_cases hname : name' = name
    · rw [hname, hcontains]
      simp
    · simp [hname]
  · rw [contains_addService]

theorem contains_subscribe (sub : Bool) :
  (s.subscribe id name sub).contains name' = s.contains name'
  := by
  unfold subscribe
  split
  · rename_i service hlookup
    split
    · rfl
    · rw [contains_addService]
      by_cases hname : name' = name
      · rw [hname, contains, hlookup]
        simp
      · simp [hname]
  · rfl

/-- Subscribing sets one subscription to one service, if it is there. -/
theorem isSubed_subscribe (sub : Bool) :
  (s.subscribe id name sub).isSubed other name'
    = if other = id ∧ name' = name ∧ s.contains name = true then sub else s.isSubed other name'
  := by
  unfold subscribe
  split
  · rename_i service hlookup
    have hcontains : s.contains name = true := by
      rw [contains, hlookup]
      rfl
    have hold : s.isSubed other name = service.isSubed other := by
      rw [isSubed, hlookup]
      rfl
    split
    · rename_i hsub
      split
      · rename_i hsame
        rw [hsame.2.1, hold, hsame.1, hsub]
      · rfl
    · rw [isSubed_addService]
      by_cases hname : name' = name
      · subst hname
        cases sub with
        | true =>
            rw [if_pos rfl, if_pos rfl, ServiceTmpl.isSubed_onSubscribe]
            by_cases hother : other = id
            · simp [hother, hcontains]
            · simp [hother, hold]
        | false =>
            rw [if_pos rfl, if_neg (by decide), ServiceTmpl.isSubed_onUnsubscribe]
            by_cases hother : other = id
            · simp [hother, hcontains]
            · simp [hother, hold]
      · simp [hname]
  · rename_i hlookup
    have hcontains : ¬ s.contains name = true := by
      rw [contains, hlookup]
      exact Bool.false_ne_true
    simp [hcontains]

/-- One round of the loop of `capture_displays`. -/
def captureDisplay (id : BitVec 32) (displays : List String) (incl excl : Bool) (s : Server α)
    (name : String) : Server α :=
  if isVideoServiceName name then
    if name ∈ displays then if incl then s.subscribe id name true else s
    else if excl then s.subscribe id name false else s
  else s

variable {displays : List String} {incl excl : Bool}

theorem contains_captureDisplay :
  (s.captureDisplay id displays incl excl name').contains name = s.contains name
  := by
  unfold captureDisplay
  split_ifs
  · apply contains_subscribe
  · rfl
  · apply contains_subscribe
  · rfl
  · rfl

/-- The subscription of the connection to a video service after the loop. -/
def captured (displays : List String) (incl excl : Bool) (name : String) (before : Bool) : Bool :=
  if name ∈ displays then incl || before else !excl && before

theorem captured_captured (before : Bool) :
  captured displays incl excl name (captured displays incl excl name before)
    = captured displays incl excl name before
  := by
  unfold captured
  split
  · rw [← Bool.or_assoc, Bool.or_self]
  · rw [← Bool.and_assoc, Bool.and_self]

theorem isSubed_captureDisplay :
  (s.captureDisplay id displays incl excl name').isSubed other name
    = if other = id ∧ isVideoServiceName name ∧ s.contains name ∧ name = name' then
        captured displays incl excl name (s.isSubed id name)
      else s.isSubed other name
  := by
  unfold captureDisplay captured
  by_cases hname : name = name'
  · subst hname
    by_cases hother : other = id
    · subst hother
      split_ifs <;> simp_all [isSubed_subscribe]
    · split_ifs <;> simp_all [isSubed_subscribe]
  · split_ifs <;> simp_all [isSubed_subscribe]

/-- The loop over any list of names. -/
theorem isSubed_foldl (keys : List String) :
  ∀ s : Server α, (keys.foldl (captureDisplay id displays incl excl) s).isSubed other name
    = if other = id ∧ isVideoServiceName name ∧ s.contains name ∧ name ∈ keys then
        captured displays incl excl name (s.isSubed id name)
      else s.isSubed other name
  := by
  induction keys with
  | nil =>
      intro s
      simp
  | cons first keys ih =>
      intro s
      rw [List.foldl_cons, ih, contains_captureDisplay, isSubed_captureDisplay,
        isSubed_captureDisplay]
      by_cases hfirst : name = first
      · subst hfirst
        split_ifs <;> simp_all [captured_captured]
      · simp [hfirst]

/-- `capture_displays` changes the subscriptions of the connection to the video services that are
there: those of the list when it includes, and the others when it excludes. -/
theorem isSubed_captureDisplays {source : VideoSource} {displays : List ℕ} :
  (s.captureDisplays order id source displays incl excl).isSubed other name
    = if other = id ∧ isVideoServiceName name ∧ s.contains name then
        captured (displays.map source.getServiceName) incl excl name (s.isSubed id name)
      else s.isSubed other name
  := by
  have hmem : name ∈ order.keys s.services.keys ↔ s.contains name = true := by
    rw [(order.perm _).mem_iff, contains, AList.lookup_isSome, AList.mem_keys]
  apply (isSubed_foldl (order.keys s.services.keys) s).trans
  simp only [hmem, and_self]

/-- Services that were missing change no subscription. -/
theorem isSubed_addAllMissing (source : VideoSource) (displays : List ℕ) :
  ∀ s : Server α, (s.addAllMissing source displays).isSubed id name = s.isSubed id name
  := by
  induction displays with
  | nil =>
      intro s
      rfl
  | cons d displays ih =>
      intro s
      apply (ih _).trans isSubed_addMissing

/-- All displays of a list have their services after they were added. -/
theorem contains_addAllMissing (source : VideoSource) (displays : List ℕ) :
  ∀ s : Server α, (s.addAllMissing source displays).contains name
    = (decide (name ∈ displays.map source.getServiceName) || s.contains name)
  := by
  induction displays with
  | nil =>
      intro s
      simp [addAllMissing]
  | cons d displays ih =>
      intro s
      apply (ih _).trans
      rw [contains_addMissing, List.map_cons]
      by_cases hname : name = source.getServiceName d
      · simp [hname]
      · simp [hname]

/-- The displays of a source that a connection is subscribed to. -/
def displaysOf (id : BitVec 32) (source : VideoSource) (s : Server α) : Set ℕ :=
  {d | s.isSubed id (source.getServiceName d) = true}

end Server

namespace Conn

/-- The indices of a list that the source has. -/
def validIndices (sourceCount : ℕ) (displays : List ℕ) : Set ℕ :=
  {d | d ∈ displays ∧ d < sourceCount}

/-- A request to choose displays does what it says: it adds, takes away or sets the valid indices of
its first list that is not empty, changes nothing if there are none, and leaves all other
connections as they were. -/
structure AsAsked (sourceCount : ℕ) (add sub set : List ℕ) (c : Conn) (server : Server α)
    (c' : Conn) (server' : Server α) : Prop where
  added : add ≠ [] →
    server'.displaysOf (BitVec.ofInt 32 c.id) c.videoSource
      = server.displaysOf (BitVec.ofInt 32 c.id) c.videoSource ∪ validIndices sourceCount add
  subtracted : add = [] → sub ≠ [] →
    server'.displaysOf (BitVec.ofInt 32 c.id) c.videoSource
      = server.displaysOf (BitVec.ofInt 32 c.id) c.videoSource \ validIndices sourceCount sub
  replaced : add = [] → sub = [] → validIndices sourceCount set ≠ ∅ →
    server'.displaysOf (BitVec.ofInt 32 c.id) c.videoSource = validIndices sourceCount set
  ignored : ∀ deciding, [add, sub, set].find? (!·.isEmpty) = some deciding →
    validIndices sourceCount deciding = ∅ → c' = c ∧ server' = server
  others : ∀ other name, other ≠ BitVec.ofInt 32 c.id →
    server'.isSubed other name = server.isSubed other name

/-- The list that decides a request, and what becomes of the displays in it and of the others. -/
def deciding (add sub set : List ℕ) : List ℕ × Bool × Bool :=
  if !add.isEmpty then (add, true, false)
  else if !sub.isEmpty then (sub, false, true)
  else (set, true, true)

variable {order : KeyOrder} {h : Host} {sourceCount : ℕ} {add sub set : List ℕ} {c : Conn}
variable {server : Server α}

theorem mem_filter_iff {displays : List ℕ} {d : ℕ} :
  d ∈ displays.filter (· < sourceCount) ↔ d ∈ validIndices sourceCount displays
  := by
  rw [List.mem_filter, decide_eq_true_iff]
  rfl

theorem isEmpty_filter_iff (displays : List ℕ) :
  (displays.filter (· < sourceCount)).isEmpty = true ↔ validIndices sourceCount displays = ∅
  := by
  rw [List.isEmpty_iff, List.filter_eq_nil_iff, Set.eq_empty_iff_forall_notMem]
  simp [validIndices]

/-- A request is ignored when the list that decides it is not empty and has no valid index. -/
def Ignored (sourceCount : ℕ) (add sub set : List ℕ) : Prop :=
  ¬ (deciding add sub set).1 = [] ∧ validIndices sourceCount (deciding add sub set).1 = ∅

/-- The first list that is not empty decides. -/
theorem ignored_of_find {displays : List ℕ}
    (hfirst : [add, sub, set].find? (!·.isEmpty) = some displays)
    (hvalid : validIndices sourceCount displays = ∅) :
  Ignored sourceCount add sub set
  := by
  have hdeciding : (deciding add sub set).1 = displays := by
    unfold deciding
    cases add with
    | cons _ _ => simpa using hfirst
    | nil =>
        cases sub with
        | cons _ _ => simpa using hfirst
        | nil =>
            cases set with
            | cons _ _ => simpa using hfirst
            | nil => simp at hfirst
  have hdisplays : displays ≠ [] := by
    have hsome := List.find?_some hfirst
    simpa using hsome
  rw [Ignored, hdeciding]
  exact ⟨hdisplays, hvalid⟩

/-- The guard of `capture_displays`. -/
theorem ignored_iff :
  (!add.isEmpty && (add.filter (· < sourceCount)).isEmpty
      || add.isEmpty && !sub.isEmpty && (sub.filter (· < sourceCount)).isEmpty
      || add.isEmpty && sub.isEmpty && !set.isEmpty
        && (set.filter (· < sourceCount)).isEmpty) = true
    ↔ Ignored sourceCount add sub set
  := by
  rw [Ignored, deciding, ← isEmpty_filter_iff]
  cases add with
  | cons _ _ => simp
  | nil =>
      cases sub with
      | cons _ _ => simp
      | nil => simp

theorem captureDisplaysOf_of_ignored (hignored : Ignored sourceCount add sub set) :
  c.captureDisplaysOf order h sourceCount add sub set server = (c, server)
  := by
  unfold captureDisplaysOf
  exact if_pos (ignored_iff.mpr hignored)

/-- Following the focused window changes no subscription to a video service, and none of another
connection. -/
theorem isSubed_followFocusedWindowOf {other : BitVec 32} {name : String}
    (hname : isVideoServiceName name = true ∨ other ≠ BitVec.ofInt 32 c.id) :
  (c.followFocusedWindowOf h server).2.isSubed other name = server.isSubed other name
  := by
  unfold followFocusedWindowOf
  dsimp only
  split
  · rw [Server.isSubed_subscribe, if_neg]
    rintro ⟨hother, rfl, -⟩
    rw [not_isVideoServiceName_nameWindowFocus] at hname
    rcases hname with hname | hname
    · cases hname
    · exact hname hother
  · rfl

/-- A request that is not ignored goes to the server with its deciding list. -/
theorem captureDisplaysOf_of_not_ignored (hignored : ¬ Ignored sourceCount add sub set) :
  c.captureDisplaysOf order h sourceCount add sub set server
    = c.followFocusedWindowOf h
      (((server.addAllMissing c.videoSource (add.filter (· < sourceCount))).addAllMissing
        c.videoSource (set.filter (· < sourceCount))).captureDisplays order (BitVec.ofInt 32 c.id)
        c.videoSource ((deciding add sub set).1.filter (· < sourceCount)) (deciding add sub set).2.1
        (deciding add sub set).2.2)
  := by
  unfold captureDisplaysOf deciding
  dsimp only
  rw [if_neg (ignored_iff.not.mpr hignored)]
  split
  · rfl
  · split <;> rfl

/-- The subscriptions of other connections stay as they are. -/
theorem isSubed_captureDisplaysOf_other {other : BitVec 32} (hother : other ≠ BitVec.ofInt 32 c.id)
    (name : String) :
  (c.captureDisplaysOf order h sourceCount add sub set server).2.isSubed other name
    = server.isSubed other name
  := by
  by_cases hignored : Ignored sourceCount add sub set
  · rw [captureDisplaysOf_of_ignored hignored]
  · rw [captureDisplaysOf_of_not_ignored hignored]
    rw [isSubed_followFocusedWindowOf (.inr hother)]
    rw [Server.isSubed_captureDisplays, if_neg (fun hall => hother hall.1)]
    rw [Server.isSubed_addAllMissing, Server.isSubed_addAllMissing]

theorem mem_map_getServiceName (source source' : VideoSource) (displays : List ℕ) (d : ℕ) :
  source'.getServiceName d ∈ displays.map source.getServiceName ↔ source' = source ∧ d ∈ displays
  := by
  rw [List.mem_map]
  constructor
  · rintro ⟨d', hd', hname⟩
    obtain ⟨rfl, rfl⟩ := getServiceName_inj.mp hname
    exact ⟨rfl, hd'⟩
  · rintro ⟨rfl, hd⟩
    exact ⟨d, hd, rfl⟩

/-- A list that includes its displays has them among the services that are added. -/
theorem mem_add_or_set {d : ℕ} (hincl : (deciding add sub set).2.1 = true)
    (hd : d ∈ (deciding add sub set).1) :
  d ∈ add ∨ d ∈ set
  := by
  unfold deciding at *
  split at hincl
  · rename_i hadd
    rw [if_pos hadd] at hd
    exact .inl hd
  · rename_i hadd
    rw [if_neg hadd] at hd
    split at hincl
    · cases hincl
    · rename_i hsub
      rw [if_neg hsub] at hd
      exact .inr hd

/-- What becomes of a display. -/
theorem isSubed_captureDisplaysOf (hignored : ¬ Ignored sourceCount add sub set)
    (source : VideoSource) (d : ℕ) :
  (c.captureDisplaysOf order h sourceCount add sub set server).2.isSubed (BitVec.ofInt 32 c.id)
      (source.getServiceName d)
    = if source = c.videoSource ∧ d ∈ (deciding add sub set).1.filter (· < sourceCount) then
        (deciding add sub set).2.1
          || server.isSubed (BitVec.ofInt 32 c.id) (source.getServiceName d)
      else !(deciding add sub set).2.2
        && server.isSubed (BitVec.ofInt 32 c.id) (source.getServiceName d)
  := by
  have hvideo := isVideoServiceName_getServiceName source d
  rw [captureDisplaysOf_of_not_ignored hignored]
  rw [isSubed_followFocusedWindowOf (.inl hvideo), Server.isSubed_captureDisplays]
  rw [Server.contains_addAllMissing, Server.contains_addAllMissing, Server.captured]
  simp only [Server.isSubed_addAllMissing, mem_map_getServiceName, hvideo]
  split
  · rfl
  · rename_i hmissing
    simp only [true_and, Bool.or_eq_true, decide_eq_true_eq, not_or, List.mem_filter] at hmissing
    obtain ⟨hset, hadd, hcontains⟩ := hmissing
    have hsubed : server.isSubed (BitVec.ofInt 32 c.id) (source.getServiceName d) = false := by
      cases hsubed : server.isSubed (BitVec.ofInt 32 c.id) (source.getServiceName d) with
      | true => exact absurd (Server.contains_of_isSubed hsubed) hcontains
      | false => rfl
    rw [hsubed]
    split
    · rename_i hd
      obtain ⟨hsource, hd, hlt⟩ : source = c.videoSource ∧ d ∈ (deciding add sub set).1
          ∧ d < sourceCount := by simpa using hd
      cases hincl : (deciding add sub set).2.1 with
      | true =>
          rcases mem_add_or_set hincl hd with hmem | hmem
          · exact absurd ⟨hsource, hmem, hlt⟩ hadd
          · exact absurd ⟨hsource, hmem, hlt⟩ hset
      | false => rfl
    · rw [Bool.and_false]

/-- The displays of the connection after a request that is not ignored: those of the list if it
includes them or they were there, and the others that were there if it does not exclude them. -/
theorem mem_displaysOf_captureDisplaysOf (hignored : ¬ Ignored sourceCount add sub set)
    (source : VideoSource) (d : ℕ) :
  d ∈ (c.captureDisplaysOf order h sourceCount add sub set server).2.displaysOf
      (BitVec.ofInt 32 c.id) source
    ↔ ((source = c.videoSource ∧ d ∈ validIndices sourceCount (deciding add sub set).1)
        ∧ ((deciding add sub set).2.1 = true ∨ d ∈ server.displaysOf (BitVec.ofInt 32 c.id) source))
      ∨ (¬ (source = c.videoSource ∧ d ∈ validIndices sourceCount (deciding add sub set).1)
        ∧ (deciding add sub set).2.2 = false
        ∧ d ∈ server.displaysOf (BitVec.ofInt 32 c.id) source)
  := by
  change Server.isSubed _ _ _ = true ↔ _
  rw [isSubed_captureDisplaysOf hignored, ← mem_filter_iff]
  split
  · rename_i hd
    simp only [hd, true_and, not_true_eq_false, false_and, or_false, Bool.or_eq_true]
    rfl
  · rename_i hd
    simp only [hd, false_and, not_false_eq_true, true_and, false_or, Bool.and_eq_true,
      Bool.not_eq_true']
    rfl

/-- A list of displays to add adds its valid indices. -/
theorem displaysOf_add (hadd : add ≠ []) (hvalid : validIndices sourceCount add ≠ ∅) :
  (c.captureDisplaysOf order h sourceCount add sub set server).2.displaysOf (BitVec.ofInt 32 c.id)
      c.videoSource
    = server.displaysOf (BitVec.ofInt 32 c.id) c.videoSource ∪ validIndices sourceCount add
  := by
  have hdeciding : deciding add sub set = (add, true, false) := by
    rw [deciding, if_pos (by simpa using hadd)]
  have hignored : ¬ Ignored sourceCount add sub set := by
    rw [Ignored, hdeciding]
    exact fun hignored => hvalid hignored.2
  ext d
  rw [mem_displaysOf_captureDisplaysOf hignored, hdeciding, Set.mem_union]
  simp only [true_and]
  tauto

/-- A list of displays to take away leaves those of its valid indices that were there. -/
theorem displaysOf_sub (hsub : sub ≠ []) (hvalid : validIndices sourceCount sub ≠ ∅) :
  (c.captureDisplaysOf order h sourceCount [] sub set server).2.displaysOf (BitVec.ofInt 32 c.id)
      c.videoSource
    = server.displaysOf (BitVec.ofInt 32 c.id) c.videoSource ∩ validIndices sourceCount sub
  := by
  have hdeciding : deciding [] sub set = (sub, false, true) := by
    rw [deciding, if_neg (by decide), if_pos (by simpa using hsub)]
  have hignored : ¬ Ignored sourceCount [] sub set := by
    rw [Ignored, hdeciding]
    exact fun hignored => hvalid hignored.2
  ext d
  rw [mem_displaysOf_captureDisplaysOf hignored, hdeciding, Set.mem_inter_iff]
  simp [and_comm]

/-- A list of displays to set sets its valid indices, and none if it is empty. -/
theorem displaysOf_set (hvalid : set ≠ [] → validIndices sourceCount set ≠ ∅) :
  (c.captureDisplaysOf order h sourceCount [] [] set server).2.displaysOf (BitVec.ofInt 32 c.id)
      c.videoSource
    = validIndices sourceCount set
  := by
  have hignored : ¬ Ignored sourceCount [] [] set := fun hignored =>
    hvalid hignored.1 hignored.2
  ext d
  rw [mem_displaysOf_captureDisplaysOf hignored]
  simp [deciding]

/-- Choosing displays does what the request says, unless it takes away valid displays from a
connection that has any. -/
theorem captureDisplaysOf_asAsked_iff :
  AsAsked sourceCount add sub set c server
      (c.captureDisplaysOf order h sourceCount add sub set server).1
      (c.captureDisplaysOf order h sourceCount add sub set server).2
    ↔ ¬ (add = [] ∧ validIndices sourceCount sub ≠ ∅
      ∧ server.displaysOf (BitVec.ofInt 32 c.id) c.videoSource ≠ ∅)
  := by
  constructor
  · rintro hasked ⟨rfl, hvalid, hdisplays⟩
    have hsub : sub ≠ [] := by
      rintro rfl
      apply hvalid
      simp [validIndices]
    have hleft := (hasked.subtracted rfl hsub).symm.trans (displaysOf_sub hsub hvalid)
    apply hdisplays
    apply Set.eq_empty_of_forall_notMem
    intro d hd
    have hboth := Set.ext_iff.mp hleft d
    rw [Set.mem_sdiff, Set.mem_inter_iff] at hboth
    tauto
  · intro hmet
    constructor
    · intro hadd
      by_cases hvalid : validIndices sourceCount add = ∅
      · have hignored : Ignored sourceCount add sub set := ignored_of_find (by simp [hadd]) hvalid
        rw [captureDisplaysOf_of_ignored hignored, hvalid, Set.union_empty]
      · apply displaysOf_add hadd hvalid
    · rintro rfl hsub
      by_cases hvalid : validIndices sourceCount sub = ∅
      · have hignored : Ignored sourceCount [] sub set := ignored_of_find (by simp [hsub]) hvalid
        rw [captureDisplaysOf_of_ignored hignored, hvalid, Set.sdiff_empty]
      · have hnone : server.displaysOf (BitVec.ofInt 32 c.id) c.videoSource = ∅ := by
          by_contra hdisplays
          exact hmet ⟨rfl, hvalid, hdisplays⟩
        rw [displaysOf_sub hsub hvalid, hnone, Set.empty_inter, Set.empty_sdiff]
    · rintro rfl rfl hvalid
      apply displaysOf_set
      intro _
      exact hvalid
    · intro deciding hdeciding hvalid
      have hignored : Ignored sourceCount add sub set := ignored_of_find hdeciding hvalid
      rw [captureDisplaysOf_of_ignored hignored]
      exact ⟨rfl, rfl⟩
    · intro other name hother
      apply isSubed_captureDisplaysOf_other hother

/-- The server lets two displays be captured, and one connection is subscribed to both. -/
def sampleServer : Server Unit :=
  let server : Server Unit := { services := ∅ }
  ((server.addAllMissing .monitor [0, 1]).subscribe 1 "monitor0" true).subscribe 1 "monitor1" true

/-- A map that gives its keys in the order of its entries, and a build. -/
def sampleOrder : KeyOrder := ⟨fun names => names, fun _ => .refl _⟩

def sampleBuild : Host := .sample .linux true fun bytes => bytes

/-- The connection. -/
def sampleViewer : Conn := .new {} 1 "salt" "challenge"

/-- To take the second display away takes the first one away. -/
theorem not_asAsked_sub :
  ¬ AsAsked 2 [] [1] [] sampleViewer sampleServer
    (sampleViewer.captureDisplaysOf sampleOrder sampleBuild 2 [] [1] []
      sampleServer).1
    (sampleViewer.captureDisplaysOf sampleOrder sampleBuild 2 [] [1] []
      sampleServer).2
  := by
  intro hasked
  have hsecond : 1 ∈ validIndices 2 [1] := by
    simp [validIndices]
  have hvalid : validIndices 2 [1] ≠ ∅ := Set.Nonempty.ne_empty ⟨1, hsecond⟩
  have hleft := (hasked.subtracted rfl (by decide)).symm.trans (displaysOf_sub (by decide) hvalid)
  have hseen : 1 ∈ sampleServer.displaysOf (BitVec.ofInt 32 sampleViewer.id)
      sampleViewer.videoSource := by
    change Server.isSubed _ _ _ = true
    decide
  have hboth := (Set.ext_iff.mp hleft 1).mpr ⟨hseen, hsecond⟩
  exact hboth.2 hsecond

/-! ### The view of one connection -/

/-- The subscriptions that a connection keeps of itself are those that the server has of it. -/
def Sees (c : Conn) (server : Server α) : Prop :=
  ∀ source d, (source, d) ∈ c.book.videoSubs
    ↔ d ∈ server.displaysOf (BitVec.ofInt 32 c.id) source

theorem mem_videoSubs_serverCaptureDisplays (source source' : VideoSource) (displays : List ℕ)
    (inc exc : Bool) (d : ℕ) :
  (source', d) ∈ (c.serverCaptureDisplays source displays inc exc).book.videoSubs
    ↔ ((source' = source ∧ d ∈ displays) ∧ (inc = true ∨ (source', d) ∈ c.book.videoSubs))
      ∨ (¬ (source' = source ∧ d ∈ displays) ∧ exc = false ∧ (source', d) ∈ c.book.videoSubs)
  := by
  have hnames : (source', d) ∈ displays.map (fun d => (source, d))
      ↔ source' = source ∧ d ∈ displays := by
    simp only [List.mem_map, Prod.mk.injEq]
    constructor
    · rintro ⟨_, hd, rfl, rfl⟩
      exact ⟨rfl, hd⟩
    · rintro ⟨rfl, hd⟩
      exact ⟨d, hd, rfl, rfl⟩
  unfold serverCaptureDisplays
  cases inc <;> cases exc <;> simp [withBook, hnames] <;> tauto

theorem book_followFocusedWindow {e : Env} :
  (c.followFocusedWindow h e).book.videoSubs = c.book.videoSubs
    ∧ (c.followFocusedWindow h e).id = c.id
  := by
  unfold followFocusedWindow subscribe
  dsimp only
  split
  · split <;> exact ⟨rfl, rfl⟩
  · exact ⟨rfl, rfl⟩

/-- Where the connection of a message handler sees its subscriptions on the server, it sees them
after its peer has chosen displays. -/
theorem Sees.captureDisplays {e : Env} (hsees : c.Sees server) (halive : e.serverAlive = true)
    (hcount : e.videoSourceCount c.videoSource = sourceCount) :
  (c.captureDisplays h e add sub set).Sees
    (c.captureDisplaysOf order h sourceCount add sub set server).2
  := by
  subst hcount
  unfold Sees at hsees ⊢
  intro source d
  by_cases hignored : Ignored (e.videoSourceCount c.videoSource) add sub set
  · have hsame : c.captureDisplays h e add sub set = c := by
      unfold captureDisplays
      exact if_pos (ignored_iff.mpr hignored)
    rw [hsame, captureDisplaysOf_of_ignored hignored]
    apply hsees
  · have hserver : c.captureDisplays h e add sub set
        = (c.serverCaptureDisplays c.videoSource
            ((deciding add sub set).1.filter (· < e.videoSourceCount c.videoSource))
            (deciding add sub set).2.1 (deciding add sub set).2.2).followFocusedWindow h e := by
      unfold captureDisplays deciding
      dsimp only
      rw [if_neg (ignored_iff.not.mpr hignored), if_pos halive]
      split
      · rfl
      · split <;> rfl
    have hid : (c.captureDisplays h e add sub set).id = c.id := by
      rw [hserver, (book_followFocusedWindow).2]
      rfl
    rw [hid, mem_displaysOf_captureDisplaysOf hignored, hserver]
    rw [(book_followFocusedWindow).1, mem_videoSubs_serverCaptureDisplays, mem_filter_iff, hsees]

end Conn

end VynxDesk

import VynxDesk.PortForward.Outbound

/-!
# How many tasks the channel cap allows

`on_open` counts the entries of the table.  An entry leaves the table on `close`, and on a frame
that is not delivered, while its task may still run: the cap bounds the tasks in every run in which
such a task has ended before the next channel is opened (`Settled`).
-/

namespace VynxDesk.Mux

/-- The task has been spawned, and has not ended. -/
def Chan.running (c : Chan) : Bool := c.stage ≠ .ended

namespace PortForwardMux

/-- The number of tasks that run. -/
def tasks (m : PortForwardMux) : Nat := m.channels.countP Chan.running

/-- The cap bounds the tasks. -/
def TasksBounded (m : PortForwardMux) : Prop := m.tasks ≤ maxChannels

/-- An `open` that passes the other checks, and finds room in the table, finds no task that still
runs after its entry has left the table. -/
def Settled (m : PortForwardMux) : Act → Prop
  | .frame (.openCh id host port _) permitted =>
      m.accepts id host port permitted = true → m.channels.retain.len < maxChannels →
        ∀ c ∈ m.channels.retain, c.running = true → c.listed = true
  | _ => True

variable {m m' : PortForwardMux}

/-- What leaves every task where it was leaves their number as it was. -/
theorem countP_running_map {cs : Channels} {f : Chan → Chan} (hf : ∀ c, (f c).stage = c.stage) :
  (cs.map f).countP Chan.running = cs.countP Chan.running
  := by
  rw [List.countP_map]
  apply List.countP_congr
  intro c _
  unfold Chan.running
  rw [Function.comp_apply, hf]

theorem countP_running_update {cs : Channels} {id : ChannelId} {f : Chan → Chan}
    (hf : ∀ c, Chan.SameTask c (f c)) :
  (cs.update id f).countP Chan.running = cs.countP Chan.running
  := by
  apply countP_running_map
  intro c
  split_ifs
  · apply (hf c).stage
  · rfl

theorem countP_running_retain (cs : Channels) :
  cs.retain.countP Chan.running = cs.countP Chan.running
  := by
  apply countP_running_map
  intro c
  split_ifs <;> rfl

/-- A task that takes a step runs. -/
theorem running_of_step {gone down : Bool} {c c' : Chan} {out : Output}
    (hstep : Chan.Step gone down c out c') :
  c.running = true
  := by
  rw [Chan.running]
  rw [decide_eq_true_eq]
  intro hended
  cases hstep with
  | take hs | cancelTake hs | readPrebuf hs | readSocket hs | cancelRead hs | refund hs | send hs
  | sendGone hs | nextPending hs | nextInbound hs | nextGone hs | cancelNext hs | write hs
  | writeFailed hs | cancelWrite hs | account hs | update hs | updateGone hs | cancel hs | join hs
  | part hs | partGone hs | greet hs | greetGone hs | connecting hs | connectingGone hs
  | connected hs | connectFailed hs | grant hs => cases hs.symm.trans hended

/-- A step of a task starts none. -/
theorem countP_running_set {cs : Channels} {i : Nat} {c c' : Chan} (hc : cs[i]? = some c)
    (hrunning : c.running = true) :
  (cs.set i c').countP Chan.running ≤ cs.countP Chan.running
  := by
  obtain ⟨hlt, hget⟩ := List.getElem?_eq_some_iff.mp hc
  rw [List.countP_set hlt, hget, if_pos hrunning]
  have hpos : 0 < cs.countP Chan.running := by
    rw [List.countP_pos_iff]
    exact ⟨c, List.mem_of_getElem? hc, hrunning⟩
  split_ifs <;> omega

/-- A step that starts no channel leaves the number of tasks as it was, or lower. -/
theorem tasks_step {act : Act} (hstep : Step m act m') :
  m'.tasks ≤ m.tasks
    ∨ ∃ id host port window permitted, act = .frame (.openCh id host port window) permitted
      ∧ m.accepts id host port permitted = true ∧ m.channels.retain.len < maxChannels
      ∧ m'.tasks = m.tasks + 1
  := by
  unfold tasks
  cases hstep with
  | frame ch permitted =>
      cases ch with
      | data id data =>
          left
          apply Nat.le_of_eq
          apply countP_running_update (Chan.sameTask_onData data)
      | close id =>
          left
          apply Nat.le_of_eq
          apply countP_running_update
          intro c
          apply (Chan.SameTask.refl c).unlist.push
      | windowUpdate id add =>
          left
          apply Nat.le_of_eq
          apply countP_running_update
          intro c
          constructor <;> rfl
      | opened id success message window => exact Or.inl (Nat.le_refl _)
      | other => exact Or.inl (Nat.le_refl _)
      | openCh id host port window =>
          obtain ⟨out, heq, -⟩ | ⟨addr, isRdp, heq, hlen, haccepts⟩ :=
            onOpen_cases id host port window permitted m
          · left
            unfold handle
            dsimp only
            rw [heq]
            dsimp only
            rw [countP_running_retain]
          · right
            refine ⟨id, host, port, window, permitted, rfl, haccepts, hlen, ?_⟩
            unfold handle
            dsimp only
            rw [heq]
            dsimp only
            rw [List.countP_append, countP_running_retain]
            rfl
  | task hc hstep =>
      left
      rw [emit_channels]
      apply countP_running_set hc (running_of_step hstep)
  | write hout => exact Or.inl (Nat.le_refl _)
  | clear =>
      left
      apply Nat.le_of_eq
      apply countP_running_map
      intro c
      rfl
  | raise hcleared => exact Or.inl (Nat.le_refl _)
  | drop => exact Or.inl (Nat.le_refl _)

/-- Tasks that all have their entries are no more than the entries. -/
theorem tasks_le_len (hlisted : ∀ c ∈ m.channels.retain, c.running = true → c.listed = true) :
  m.tasks ≤ m.channels.retain.len
  := by
  rw [tasks, ← countP_running_retain, Channels.len]
  apply List.countP_mono_left hlisted

/-- The cap bounds the tasks all along a run in which a task that has lost its entry has ended
before the next channel is opened. -/
theorem tasksBounded_of_run {loginTarget : String} {hist : List (PortForwardMux × Act)}
    (hrun : Run Step (new loginTarget) hist m) (hsettled : ∀ x ∈ hist, x.1.Settled x.2) :
  (∀ x ∈ hist, x.1.TasksBounded) ∧ m.TasksBounded
  := by
  apply hrun.forall_of Settled TasksBounded TasksBounded _ (fun _ hm => hm) _ hsettled
  · apply Nat.zero_le
  · intro m act m' hm hsettled hstep
    obtain hle | ⟨id, host, port, window, permitted, rfl, haccepts, hlen, heq⟩ := tasks_step hstep
    · apply Nat.le_trans hle hm
    · have hle := tasks_le_len (hsettled haccepts hlen)
      unfold TasksBounded
      omega

/-! ### A peer that closes what it opens -/

/-- There are `n` tasks, which all run, and none of them has its entry. -/
structure AllStray (n : Nat) (m : PortForwardMux) : Prop where
  length : m.channels.length = n
  target : m.loginTarget = sampleTarget
  unlisted : ∀ c ∈ m.channels, c.listed = false
  running : ∀ c ∈ m.channels, c.running = true

theorem isEntry_of_unlisted {c : Chan} (h : c.listed = false) (id : ChannelId) :
  c.isEntry id = false
  := by
  rw [Chan.isEntry]
  rw [h]
  rfl

/-- Nothing is freed of a table without entries. -/
theorem retain_of_unlisted {cs : Channels} (h : ∀ c ∈ cs, c.listed = false) :
  cs.retain = cs
  := by
  rw [Channels.retain]
  rw [List.map_congr_left (g := id), List.map_id]
  intro c hc
  split_ifs
  · rfl
  · rw [Chan.unlist]
    rw [← h c hc]
    rfl

/-- An `open` starts a channel when the table has no entries. -/
theorem AllStray.open {n : Nat} (h : m.AllStray n) :
  m.handle (.openCh 1 Str.empty 80 channelWindow) true
    = { m with channels := m.channels ++ [sampleChan] }
  := by
  have hlen : m.channels.len = 0 := by
    apply List.countP_eq_zero.mpr
    intro c hc
    rw [h.unlisted c hc]
    decide
  have hkey : m.channels.containsKey 1 = false := by
    apply List.any_eq_false.mpr
    intro c hc
    rw [isEntry_of_unlisted (h.unlisted c hc)]
    decide
  rw [handle, onOpen]
  dsimp only
  rw [retain_of_unlisted h.unlisted, hlen, hkey, h.target]
  rfl

/-- The controller opens a channel, and closes it before its task has run. -/
theorem AllStray.round {n : Nat} (h : m.AllStray n) :
  ∃ hist m', Run Step m hist m' ∧ m'.AllStray (n + 1)
  := by
  have hopen := Step.frame (m := m) (.openCh 1 Str.empty 80 channelWindow) true
  rw [h.open] at hopen
  refine ⟨_, _, (Run.nil.snoc hopen).snoc (.frame (.close 1) true), ?_⟩
  have hclose : Channels.update 1 Chan.onClose (m.channels ++ [sampleChan])
      = m.channels ++ [sampleChan.onClose] := by
    rw [Channels.update]
    rw [List.map_append, List.map_congr_left (g := id), List.map_id]
    · rfl
    · intro c hc
      rw [isEntry_of_unlisted (h.unlisted c hc)]
      rfl
  constructor
  · change (Channels.update 1 Chan.onClose (m.channels ++ [sampleChan])).length = n + 1
    rw [hclose, List.length_append, h.length]
    rfl
  · exact h.target
  · change ∀ c ∈ Channels.update 1 Chan.onClose (m.channels ++ [sampleChan]), c.listed = false
    rw [hclose, List.forall_mem_append, List.forall_mem_singleton]
    exact ⟨h.unlisted, rfl⟩
  · change ∀ c ∈ Channels.update 1 Chan.onClose (m.channels ++ [sampleChan]), c.running = true
    rw [hclose, List.forall_mem_append, List.forall_mem_singleton]
    exact ⟨h.running, rfl⟩

theorem allStray_new : (new sampleTarget).AllStray 0 where
  length := rfl
  target := rfl
  unlisted := by
    intro c hc
    cases hc
  running := by
    intro c hc
    cases hc

/-- As many rounds of `open` and `close` leave as many tasks running. -/
theorem exists_allStray (n : Nat) :
  ∃ hist m, Run Step (new sampleTarget) hist m ∧ m.AllStray n
  := by
  induction n with
  | zero => exact ⟨[], _, .nil, allStray_new⟩
  | succ n ih =>
      obtain ⟨hist, m, hrun, hstray⟩ := ih
      obtain ⟨hist', m', hrun', hstray'⟩ := hstray.round
      exact ⟨hist ++ hist', m', hrun.append hrun', hstray'⟩

/-- The controller closes every channel it opens: one more task runs than the cap allows. -/
theorem not_tasksBounded_closed :
  ∃ hist m, Run Step (new sampleTarget) hist m ∧ ¬ m.TasksBounded
  := by
  obtain ⟨hist, m, hrun, hstray⟩ := exists_allStray (maxChannels + 1)
  use hist, m, hrun
  rw [TasksBounded, tasks]
  rw [List.countP_eq_length.mpr hstray.running, hstray.length]
  apply Nat.not_succ_le_self

/-- Two channels are opened, the first is closed, and its task has ended when a third is opened. -/
theorem tasksBounded_opened :
  ∃ hist m, Run Step (new sampleTarget) hist m ∧ m.tasks = 2 ∧ m.channels.length = 3
    ∧ (∀ x ∈ hist, x.1.TasksBounded) ∧ m.TasksBounded
  := by
  let second : Chan := { sampleChan with id := 2 }
  let ended : Chan :=
    { sampleChan.onClose with stage := .ended, inbound := [], broke := some .peerClosed }
  let opened : PortForwardMux := { new sampleTarget with channels := [sampleChan, second] }
  let closed : PortForwardMux := { new sampleTarget with channels := [sampleChan.onClose, second] }
  let left : PortForwardMux := { new sampleTarget with channels := [ended, second] }
  have hfirst := Step.frame (m := new sampleTarget) (.openCh 1 Str.empty 80 channelWindow) true
  rw [allStray_new.open] at hfirst
  have hsecond : Step { new sampleTarget with channels := [sampleChan] }
      (.frame (.openCh 2 Str.empty 80 channelWindow) true) opened :=
    .frame (.openCh 2 Str.empty 80 channelWindow) true
  have hclose : Step opened (.frame (.close 1) true) closed := .frame (.close 1) true
  have hinbound : sampleChan.onClose.inbound = [.close] := rfl
  have htask : Chan.Step false false sampleChan.onClose .quiet ended := .connecting rfl hinbound
  have hchan : closed.channels[0]? = some sampleChan.onClose := rfl
  have hend : Step closed (.task 0) left := Step.task (m := closed) hchan htask
  have hthird := Step.frame (m := left) (.openCh 1 Str.empty 80 channelWindow) true
  have hrun := ((((Run.nil.snoc hfirst).snoc hsecond).snoc hclose).snoc hend).snoc hthird
  refine ⟨_, _, hrun, by decide, by decide, tasksBounded_of_run hrun ?_⟩
  simp only [List.forall_mem_append, List.forall_mem_singleton]
  refine ⟨⟨⟨⟨⟨?_, ?_⟩, ?_⟩, trivial⟩, trivial⟩, ?_⟩
  · intro x hx
    cases hx
  · intro _ _ c hc
    cases hc
  · intro _ _
    decide
  · intro _ _
    decide

end PortForwardMux

end VynxDesk.Mux

import VynxDesk.Lib.Run

/-!
# Virtual displays

`amyuni_idd` of `virtual_display_manager.rs` counts the virtual displays that this process has
plugged in.  Other processes use the driver as well, which a call sees only in the counts that it
reads.  A call that is not forced leaves a display, as long as the count has not become too large,
and it takes no more displays than this process plugged in (`plugOut_of_run`).
-/

namespace VynxDesk.VirtualDisplay

/-- `IDD_PLUG_OUT_ALL_INDEX`. -/
def iddPlugOutAllIndex : Int32 := -1

/-- `VIRTUAL_DISPLAY_MAX_COUNT`. -/
def virtualDisplayMaxCount : ℕ := 4

/-- `DeviceError`, the error of a system call by its code. -/
inductive DeviceError where
  | winApiLastErr (api : String) (rawOsError : Option Int32)
  | winApiErrCode (api : String) (code : UInt32)
  | raw (text : String)
  deriving DecidableEq, Repr

/-- Whether an error is `ERROR_NO_MORE_ITEMS`. -/
def DeviceError.isNoMoreItems : DeviceError → Bool
  | .winApiLastErr _ rawOsError => rawOsError == some 259
  | _ => false

/-- The error of a call. -/
inductive Error where
  | message (text : String)
  | device (e : DeviceError)
  deriving DecidableEq, Repr

/-- `VIRTUAL_DISPLAY_COUNT`, and `LAST_PLUG_IN_HEADLESS_TIME` in milliseconds.  The number `owned`
is not in the source: it counts the displays that this process plugged in and has not plugged
out. -/
structure State where
  virtualDisplayCount : ℕ
  lastPlugInHeadlessTime : Option ℕ
  owned : ℕ
  deriving DecidableEq, Repr

/-- The process as it starts. -/
def State.start : State where
  virtualDisplayCount := 0
  lastPlugInHeadlessTime := none
  owned := 0

namespace State

/-- `plug_monitor_`, where `outcome` is what `device_io_control` returns. -/
def plugMonitor (s : State) (add : Bool) (outcome : Except DeviceError Unit) :
    Except DeviceError Unit × State :=
  match outcome with
  | .error e => (.error e, s)
  | .ok () =>
      if add then
        (.ok (), { s with
          virtualDisplayCount :=
            if s.virtualDisplayCount < virtualDisplayMaxCount then s.virtualDisplayCount + 1
            else s.virtualDisplayCount
          owned := s.owned + 1 })
      else
        (.ok (), { s with
          virtualDisplayCount :=
            if s.virtualDisplayCount > 0 then s.virtualDisplayCount - 1 else s.virtualDisplayCount
          owned := s.owned - 1 })

/-- The loop of `plug_in_monitor_`.  An attempt is what `device_io_control` returns, and whether
the time is not over by then. -/
def plugInMonitorLoop (isDriverAsyncInstalled : Bool) (s : State) :
    List (Except DeviceError Unit × Bool) → Option (Except Error Unit × State)
  | [] => none
  | (outcome, early) :: attempts =>
      match s.plugMonitor true outcome with
      | (.ok _, s') => some (.ok (), s')
      | (.error e, s') =>
          if isDriverAsyncInstalled ∧ e.isNoMoreItems ∧ early then
            s'.plugInMonitorLoop isDriverAsyncInstalled attempts
          else some (.error (.device e), s')

/-- `plug_in_headless` at the time `now`.  The driver that `install` installs says whether it is
installed asynchronously. -/
def plugInHeadless (s : State) (now : ℕ) (install : Option Bool)
    (attempts : List (Except DeviceError Unit × Bool)) : Option (Except Error Unit × State) :=
  if s.lastPlugInHeadlessTime.any fun tm => now - tm < 3000 then
    some (.error (.message "Plugging in too frequently."), s)
  else
    let s := { s with lastPlugInHeadlessTime := some now }
    match install with
    | none => some (.error (.message "Failed to install driver."), s)
    | some isAsync => s.plugInMonitorLoop isAsync attempts

/-- `plug_in_monitor`. -/
def plugInMonitor (s : State) (install : Option Bool) (monitorCount : ℕ)
    (attempts : List (Except DeviceError Unit × Bool)) : Option (Except Error Unit × State) :=
  match install with
  | none => some (.error (.message "Failed to install driver."), s)
  | some isAsync =>
      if monitorCount = virtualDisplayMaxCount then
        some (.error (.message "There are already 4 monitors plugged in."), s)
      else s.plugInMonitorLoop isAsync attempts

end State

/-- The arguments of `plug_out_monitor`, the counts that it reads, and what `device_io_control`
returns for each of the commands that it issues. -/
structure PlugOut where
  index : Int32
  forceAll : Bool
  forceOne : Bool
  amyuniCount : ℕ
  allCount : ℕ
  outcomes : List (Except DeviceError Unit)

namespace PlugOut

/-- The variable `plug_in_count`. -/
def plugInCount (call : PlugOut) (virtualDisplayCount : ℕ) : Except String ℕ :=
  if call.index ≠ iddPlugOutAllIndex ∧ virtualDisplayCount = 0 ∧ call.amyuniCount > 0 then
    if call.forceOne then .ok 1
    else .error "The virtual display is managed by other processes."
  else .ok virtualDisplayCount

/-- The `match` on `all_count`. -/
def plugOutCount (call : PlugOut) (plugInCount : ℕ) : Except String ℕ :=
  match call.allCount with
  | 0 => .ok 0
  | 1 =>
      if plugInCount = 0 then .error "No virtual displays to plug out."
      else if call.forceAll then .ok 1
      else .error "This only virtual display cannot be plugged out."
  | allCount =>
      if allCount = plugInCount then .ok (if call.forceAll then allCount else allCount - 1)
      else .ok plugInCount

/-- The variable `to_plug_out_count` before the loop. -/
def toPlugOutCount (call : PlugOut) (virtualDisplayCount : ℕ) : Except String ℕ :=
  match call.plugInCount virtualDisplayCount with
  | .error e => .error e
  | .ok plugInCount =>
      match call.plugOutCount plugInCount with
      | .error e => .error e
      | .ok count => .ok (if count ≠ 0 ∧ call.index ≠ iddPlugOutAllIndex then 1 else count)

/-- The number of commands that a call issues. -/
def issued (call : PlugOut) : ℕ := call.outcomes.length

end PlugOut

/-- `plug_out_monitor`. -/
def State.plugOutMonitor (s : State) (call : PlugOut) : Option (Except Error Unit × State) :=
  match call.toPlugOutCount s.virtualDisplayCount with
  | .error e => if call.issued = 0 then some (.error (.message e), s) else none
  | .ok count =>
      if call.issued = count then
        some (.ok (), call.outcomes.foldl (fun s outcome => (s.plugMonitor false outcome).2) s)
      else none

/-- The calls of this process; `reset_all` is a forced `plug_out_monitor`. -/
inductive Label where
  | plugInHeadless (now : ℕ) (install : Option Bool)
      (attempts : List (Except DeviceError Unit × Bool))
  | plugInMonitor (install : Option Bool) (monitorCount : ℕ)
      (attempts : List (Except DeviceError Unit × Bool))
  | plugOutMonitor (call : PlugOut)
  | resetAll (amyuniCount allCount : ℕ) (outcomes : List (Except DeviceError Unit))

/-- One call, with what it returns. -/
def exec (s : State) : Label → Option (Except Error Unit × State)
  | .plugInHeadless now install attempts => s.plugInHeadless now install attempts
  | .plugInMonitor install monitorCount attempts => s.plugInMonitor install monitorCount attempts
  | .plugOutMonitor call => s.plugOutMonitor call
  | .resetAll amyuniCount allCount outcomes =>
      (s.plugOutMonitor ⟨iddPlugOutAllIndex, true, false, amyuniCount, allCount, outcomes⟩).map
        fun r => (.ok (), { r.2 with lastPlugInHeadlessTime := none })

/-- The state after one call. -/
def step (s : State) (i : Label) : Option State := (exec s i).map Prod.snd

/-- The calls as a relation. -/
def Step (s : State) (i : Label) (s' : State) : Prop := step s i = some s'

/-! ## The count of this process -/

/-- The count is not larger than the number of displays that this process has. -/
def State.Counted (s : State) : Prop := s.virtualDisplayCount ≤ s.owned

variable {s s' : State} {call : PlugOut} {res : Except Error Unit}

theorem State.Counted.plugMonitor (h : s.Counted) (add : Bool) (outcome : Except DeviceError Unit) :
  (s.plugMonitor add outcome).2.Counted
  := by
  rw [Counted] at h
  cases outcome with
  | error e => exact h
  | ok _ =>
      cases add with
      | true =>
          change (if s.virtualDisplayCount < virtualDisplayMaxCount then s.virtualDisplayCount + 1
            else s.virtualDisplayCount) ≤ s.owned + 1
          split
          all_goals omega
      | false =>
          change (if s.virtualDisplayCount > 0 then s.virtualDisplayCount - 1
            else s.virtualDisplayCount) ≤ s.owned - 1
          split
          all_goals omega

theorem State.Counted.plugInMonitorLoop {isAsync : Bool}
    {attempts : List (Except DeviceError Unit × Bool)} (h : s.Counted)
    (hloop : s.plugInMonitorLoop isAsync attempts = some (res, s')) :
  s'.Counted
  := by
  induction attempts generalizing s with
  | nil => cases hloop
  | cons attempt attempts ih =>
      obtain ⟨outcome, early⟩ := attempt
      have hplug := h.plugMonitor true outcome
      rw [State.plugInMonitorLoop] at hloop
      generalize s.plugMonitor true outcome = plugged at hplug hloop
      obtain ⟨_ | _, s₁⟩ := plugged
      · dsimp only at hloop
        split at hloop
        next => exact ih hplug hloop
        next =>
            cases hloop
            exact hplug
      · cases hloop
        exact hplug

theorem State.Counted.foldl (h : s.Counted) (outcomes : List (Except DeviceError Unit)) :
  (outcomes.foldl (fun s outcome => (s.plugMonitor false outcome).2) s).Counted
  := by
  induction outcomes generalizing s with
  | nil => exact h
  | cons outcome outcomes ih => exact ih (h.plugMonitor false outcome)

theorem State.Counted.plugOutMonitor (h : s.Counted)
    (hcall : s.plugOutMonitor call = some (res, s')) :
  s'.Counted
  := by
  rw [State.plugOutMonitor] at hcall
  split at hcall
  next =>
      split at hcall
      next =>
          cases hcall
          exact h
      next => cases hcall
  next =>
      split at hcall
      next =>
          cases hcall
          exact h.foldl call.outcomes
      next => cases hcall

/-- Every call keeps the count below the number of displays of this process. -/
theorem State.Counted.step {i : Label} (h : s.Counted) (hstep : Step s i s') : s'.Counted
  := by
  obtain ⟨⟨res, s'⟩, hexec, rfl⟩ := Option.map_eq_some_iff.mp hstep
  cases i with
  | plugInHeadless now install attempts =>
      change s.plugInHeadless now install attempts = some (res, s') at hexec
      rw [State.plugInHeadless] at hexec
      split at hexec
      next =>
          cases hexec
          exact h
      next =>
          have hnow : ({ s with lastPlugInHeadlessTime := some now } : State).Counted := h
          cases install with
          | none =>
              cases hexec
              exact hnow
          | some isAsync => exact hnow.plugInMonitorLoop hexec
  | plugInMonitor install monitorCount attempts =>
      cases install with
      | none =>
          cases hexec
          exact h
      | some isAsync =>
          change (if monitorCount = virtualDisplayMaxCount then _
            else s.plugInMonitorLoop isAsync attempts) = some (res, s') at hexec
          split at hexec
          next =>
              cases hexec
              exact h
          next => exact h.plugInMonitorLoop hexec
  | plugOutMonitor call => exact h.plugOutMonitor hexec
  | resetAll amyuniCount allCount outcomes =>
      obtain ⟨⟨res', s₁⟩, hcall, heq⟩ := Option.map_eq_some_iff.mp hexec
      have hcounted : s₁.Counted := h.plugOutMonitor hcall
      cases heq
      exact hcounted

/-! ## What is plugged out -/

/-- A call issues as many commands as it has computed. -/
theorem toPlugOutCount_of_step (hstep : Step s (.plugOutMonitor call) s') :
  call.issued = 0 ∨ call.toPlugOutCount s.virtualDisplayCount = .ok call.issued
  := by
  obtain ⟨⟨res, s'⟩, hexec, rfl⟩ := Option.map_eq_some_iff.mp hstep
  change s.plugOutMonitor call = some (res, s') at hexec
  rw [State.plugOutMonitor] at hexec
  split at hexec
  next =>
      split at hexec
      next hnone => exact Or.inl hnone
      next => cases hexec
  next count hcount =>
      split at hexec
      next hissued =>
          rw [hissued]
          exact Or.inr hcount
      next => cases hexec

theorem PlugOut.plugInCount_eq {count n : ℕ} (hone : call.forceOne = false)
    (h : call.plugInCount count = .ok n) :
  n = count
  := by
  rw [PlugOut.plugInCount, hone] at h
  split at h
  next => cases h
  next =>
      cases h
      rfl

theorem PlugOut.plugInCount_eq_of_all {count n : ℕ} (hall : call.index = iddPlugOutAllIndex)
    (h : call.plugInCount count = .ok n) :
  n = count
  := by
  rw [PlugOut.plugInCount, if_neg (fun hne => hne.1 hall)] at h
  cases h
  rfl

/-- How many displays are plugged out of those that are counted. -/
theorem PlugOut.plugOutCount_eq {count n : ℕ} (hforce : call.forceAll = false)
    (h : call.plugOutCount count = .ok n) :
  call.allCount = 0 ∧ n = 0
    ∨ 1 < call.allCount ∧ n = if call.allCount = count then count - 1 else count
  := by
  rw [PlugOut.plugOutCount, hforce] at h
  split at h
  next hzero =>
      cases h
      exact Or.inl ⟨hzero, rfl⟩
  next =>
      split at h
      next => cases h
      next => cases h
  next allCount hzero hone =>
      apply Or.inr
      refine ⟨Nat.one_lt_iff_ne_zero_and_ne_one.mpr ⟨hzero, hone⟩, ?_⟩
      split at h
      next heq =>
          cases h
          rw [if_pos heq, heq]
          rfl
      next hne =>
          cases h
          rw [if_neg hne]

/-- What a call that is not forced issues. -/
theorem PlugOut.issued_of_ok {count n : ℕ} (hforce : call.forceAll = false)
    (h : call.toPlugOutCount count = .ok n) :
  (call.allCount = 0 → n = 0)
    ∧ (0 < call.allCount → (call.index = iddPlugOutAllIndex → count ≤ call.allCount) →
      n < call.allCount)
    ∧ (call.forceOne = false → n ≤ count)
  := by
  rw [PlugOut.toPlugOutCount] at h
  split at h
  next => cases h
  next plugInCount hplugIn =>
      split at h
      next => cases h
      next toPlugOut hplugOut =>
          have hcount := Except.ok.inj h
          have hone : call.forceOne = false → plugInCount = count := fun hone =>
            PlugOut.plugInCount_eq hone hplugIn
          have hall : call.index = iddPlugOutAllIndex → plugInCount = count := fun hall =>
            PlugOut.plugInCount_eq_of_all hall hplugIn
          rcases PlugOut.plugOutCount_eq hforce hplugOut with ⟨hzero, hnone⟩ | ⟨hmore, hsome⟩
          · rw [if_neg (fun hne => hne.1 hnone)] at hcount
            omega
          · by_cases hindex : call.index = iddPlugOutAllIndex
            · rw [if_neg (fun hne => hne.2 hindex)] at hcount
              have hsame := hall hindex
              split at hsome
              all_goals
                refine ⟨by omega, fun _ hle => ?_, fun _ => by omega⟩
                have hle := hle hindex
                omega
            · have hsmall : n ≤ 1 ∧ n ≤ toPlugOut := by
                by_cases hzero : toPlugOut = 0
                · rw [if_neg (fun hne => hne.1 hzero)] at hcount
                  omega
                · rw [if_pos ⟨hzero, hindex⟩] at hcount
                  omega
              have hplugged : toPlugOut ≤ plugInCount := by
                split at hsome
                all_goals omega
              refine ⟨by omega, fun _ _ => by omega, fun h => ?_⟩
              have hsame := hone h
              omega

/-- In every run a call that is not forced issues fewer commands than there are displays, unless
it plugs out all and the count is larger than the number of displays; and if it does not plug out
one of another process, no more than this process has. -/
theorem plugOut_of_run {h : List (State × Label)} (hrun : Run Step .start h s)
    (hstep : Step s (.plugOutMonitor call) s') (hforce : call.forceAll = false) :
  (call.allCount = 0 → call.issued = 0)
    ∧ (0 < call.allCount →
      (call.index = iddPlugOutAllIndex → s.virtualDisplayCount ≤ call.allCount) →
      call.issued < call.allCount)
    ∧ (call.forceOne = false → call.issued ≤ s.owned)
  := by
  have hstart : State.start.Counted := Nat.zero_le 0
  have hcounted : s.Counted :=
    hrun.invariant State.Counted hstart fun s i s' h hstep => h.step hstep
  rcases toPlugOutCount_of_step hstep with hnone | hcount
  · omega
  · obtain ⟨hzero, hlt, hle⟩ := PlugOut.issued_of_ok hforce hcount
    exact ⟨hzero, hlt, fun hone => Nat.le_trans (hle hone) hcounted⟩

/-- A `plug_out_monitor` of all displays whose commands all succeed. -/
def plugOutAll (allCount issued : ℕ) : PlugOut where
  index := iddPlugOutAllIndex
  forceAll := false
  forceOne := false
  amyuniCount := allCount
  allCount := allCount
  outcomes := List.replicate issued (.ok ())

/-- This process plugs in displays. -/
def pluggedIn (n : ℕ) : List Label :=
  (List.range n).map fun i => .plugInMonitor (some false) i [(.ok (), true)]

theorem plugOut_three :
  ∃ h s s' call, Run Step .start h s ∧ Step s (.plugOutMonitor call) s'
    ∧ call.allCount = 3 ∧ call.issued < 3 ∧ call.issued ≤ s.owned
  := by
  obtain ⟨h, s, hrun, htest⟩ := Run.exists_of_traceM step .start (pluggedIn 2)
    (fun _ s => s.virtualDisplayCount == 2 && (step s (.plugOutMonitor (plugOutAll 3 2))).isSome)
    (by decide)
  rw [Bool.and_eq_true, beq_iff_eq] at htest
  obtain ⟨s', hstep⟩ := Option.isSome_iff_exists.mp htest.2
  obtain ⟨-, hlt, hle⟩ := plugOut_of_run hrun hstep rfl
  exact ⟨h, s, s', _, hrun, hstep, rfl, hlt (by decide) (by rw [htest.1]; decide), hle rfl⟩

/-- A call that finds no display issues no command, and that is not fewer.  A call whose count is
larger than the number of displays, since another process has plugged one out, issues more. -/
theorem not_plugOut :
  (∃ h s s' call, Run Step .start h s ∧ Step s (.plugOutMonitor call) s' ∧ call.forceAll = false
    ∧ call.allCount = 0 ∧ ¬ call.issued < call.allCount)
  ∧ ∃ h s s' call, Run Step .start h s ∧ Step s (.plugOutMonitor call) s' ∧ call.forceAll = false
    ∧ call.allCount = 2 ∧ call.issued = 3
  := by
  constructor
  · obtain ⟨s', hstep⟩ := Option.isSome_iff_exists.mp
      (show (step .start (.plugOutMonitor (plugOutAll 0 0))).isSome = true by decide)
    exact ⟨[], .start, s', _, .nil, hstep, rfl, rfl, by decide⟩
  · obtain ⟨h, s, hrun, htest⟩ := Run.exists_of_traceM step .start (pluggedIn 3)
      (fun _ s => (step s (.plugOutMonitor (plugOutAll 2 3))).isSome) (by decide)
    obtain ⟨s', hstep⟩ := Option.isSome_iff_exists.mp htest
    exact ⟨h, s, s', _, hrun, hstep, rfl, rfl, rfl⟩

end VynxDesk.VirtualDisplay

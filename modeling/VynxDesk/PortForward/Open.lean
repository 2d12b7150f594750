import Mathlib.Data.Fintype.Card
import VynxDesk.PortForward.Handle

/-!
# Opening a channel

`TunnelHandle::open` of `port_forward_mux.rs` with its search for an identifier: the counter is
fetched, and fetched again while it names an entry of the table.  Fewer than `MAX_CHANNELS` entries
cannot be in the way of `MAX_CHANNELS` fetches, wherever the counter stands, so the search ends, and
`open` does what `TunnelHandle.insert` says.
-/

namespace VynxDesk.Mux

/-- A counter that goes on by one, wrapping around, leaves a list of identifiers before it has
taken more steps than the list is long. -/
theorem exists_not_mem (ids : List ChannelId) (nextId : ChannelId) {steps : ℕ}
    (hids : ids.length < steps) (hsteps : steps ≤ 2 ^ 32) :
  ∃ k < steps, nextId + BitVec.ofNat 32 k ∉ ids
  := by
  by_contra hall
  push Not at hall
  have hinjective : Set.InjOn (fun k => nextId + BitVec.ofNat 32 k) (Finset.range steps) := by
    intro i hi j hj hij
    have hmod : i % 2 ^ 32 = j % 2 ^ 32 := by
      simpa using congrArg BitVec.toNat ((BitVec.add_right_inj nextId).mp hij)
    rw [Finset.coe_range, Set.mem_Iio] at hi hj
    omega
  have hcard := Finset.card_le_card_of_injOn (fun k => nextId + BitVec.ofNat 32 k)
    (t := ids.toFinset) (fun k hk => by simpa using hall k (Finset.mem_range.mp hk)) hinjective
  have hlength := ids.toFinset_card_le
  rw [Finset.card_range] at hcard
  omega

namespace Channels

/-- The entries of the table. -/
def entries (cs : Channels) : List Chan := cs.filter Chan.listed

/-- The search for an identifier: the one it ends with and the number of fetches it takes, when it
ends within as many as allowed. -/
def fetchFree (cs : Channels) : ℕ → ChannelId → Option (ChannelId × ℕ)
  | 0, _ => none
  | fuel + 1, nextId =>
      if cs.containsKey nextId then
        (cs.fetchFree fuel (nextId + 1)).map fun found => (found.1, found.2 + 1)
      else some (nextId, 1)

variable {cs : Channels}

theorem containsKey_iff {id : ChannelId} :
  cs.containsKey id = true ↔ id ∈ cs.entries.map Chan.id
  := by
  simp [containsKey, entries, Chan.isEntry, List.any_eq_true, and_assoc]

theorem length_entries : cs.entries.length = cs.len
  := by
  rw [entries, len, List.countP_eq_length_filter]

/-- The search ends with the first identifier from the counter on that is free. -/
theorem fetchFree_eq {nextId : ChannelId} {k : ℕ}
    (hfree : cs.containsKey (nextId + BitVec.ofNat 32 k) = false)
    (hskipped : ∀ j < k, cs.containsKey (nextId + BitVec.ofNat 32 j) = true) :
  ∀ {fuel : ℕ}, k < fuel →
    cs.fetchFree fuel nextId = some (nextId + BitVec.ofNat 32 k, k + 1)
  := by
  induction k generalizing nextId with
  | zero =>
      intro fuel hfuel
      obtain ⟨fuel, rfl⟩ := Nat.exists_eq_succ_of_ne_zero hfuel.ne'
      simp only [BitVec.add_zero] at hfree ⊢
      rw [fetchFree, hfree]
      rfl
  | succ k ih =>
      intro fuel hfuel
      obtain ⟨fuel, rfl⟩ := Nat.exists_eq_succ_of_ne_zero (Nat.ne_zero_of_lt hfuel)
      have hnext (j : ℕ) :
          nextId + 1 + BitVec.ofNat 32 j = nextId + BitVec.ofNat 32 (j + 1) := by
        rw [BitVec.add_assoc, BitVec.ofNat_add, BitVec.add_comm (BitVec.ofNat 32 j)]
        rfl
      have htaken : cs.containsKey nextId = true := by
        simpa using hskipped 0 (Nat.succ_pos k)
      have hrest := @ih (nextId + 1) (by rw [hnext, hfree])
        (fun j hj => by rw [hnext, hskipped (j + 1) (Nat.succ_lt_succ hj)])
        _ (Nat.lt_of_succ_lt_succ hfuel)
      rw [fetchFree, htaken, if_pos rfl, hrest, hnext]
      rfl

/-- Fewer than `MAX_CHANNELS` entries leave an identifier free within `MAX_CHANNELS` fetches. -/
theorem exists_free (cs : Channels) (nextId : ChannelId) (hlen : cs.len < maxChannels) :
  ∃ k < maxChannels, cs.containsKey (nextId + BitVec.ofNat 32 k) = false ∧
    ∀ j < k, cs.containsKey (nextId + BitVec.ofNat 32 j) = true
  := by
  have hlength : (cs.entries.map Chan.id).length < maxChannels := by
    rw [List.length_map, length_entries]
    exact hlen
  have hexists : ∃ k, k < maxChannels ∧ cs.containsKey (nextId + BitVec.ofNat 32 k) = false := by
    obtain ⟨k, hk, hfree⟩ := exists_not_mem _ nextId hlength (by decide)
    use k, hk
    rw [← Bool.not_eq_true, containsKey_iff]
    exact hfree
  use Nat.find hexists
  obtain ⟨hk, hfree⟩ := Nat.find_spec hexists
  apply And.intro hk
  apply And.intro hfree
  intro j hj
  by_contra htaken
  rw [Bool.not_eq_true] at htaken
  apply Nat.find_min hexists hj ⟨hj.trans hk, htaken⟩

end Channels

namespace TunnelHandle

variable {h : TunnelHandle}

/-- `TunnelHandle::open`, when its search ends within `fuel` fetches: the handle after it, and what
it returns.  The task is spawned with the entry. -/
def openChannel (fuel : ℕ) (host : Str) (port : BitVec 32) (prebuf : Bytes) (h : TunnelHandle) :
    Option (TunnelHandle × Except String Unit) :=
  if h.teardown.gone then some (h, .error "port forward tunnel is gone")
  else if maxChannels ≤ h.channels.len then some (h, .error "too many port forward channels")
  else
    (h.channels.fetchFree fuel h.nextId).map fun found =>
      ({ h with
          nextId := found.1 + 1
          channels := h.channels ++ [Chan.controller found.1 host port prebuf] }, .ok ())

/-- The search, wherever the counter stands, on a table with fewer than `MAX_CHANNELS` entries. -/
theorem search (h : TunnelHandle) (hlen : h.channels.len < maxChannels) :
  ∃ k < maxChannels, h.skipped = some k ∧
    h.channels.containsKey (h.nextId + BitVec.ofNat 32 k) = false ∧
    ∀ fuel ≥ maxChannels,
      h.channels.fetchFree fuel h.nextId = some (h.nextId + BitVec.ofNat 32 k, k + 1)
  := by
  obtain ⟨k, hk, hfree, hskipped⟩ := h.channels.exists_free h.nextId hlen
  use k, hk
  constructor
  · rw [skipped, List.find?_range_eq_some]
    simp only [hfree, List.mem_range, Bool.not_false, true_and]
    apply And.intro hk
    intro j hj
    simp [hskipped j hj]
  · apply And.intro hfree
    intro fuel hfuel
    apply Channels.fetchFree_eq hfree hskipped (hk.trans_le hfuel)

/-- Once it has seen the sink open, `open` does what `insert` says, and it fails when the table is
full. -/
theorem openChannel_insert {fuel : ℕ} (hfuel : maxChannels ≤ fuel) (hopen : h.teardown.gone = false)
    (host : Str) (port : BitVec 32) (prebuf : Bytes) :
  h.openChannel fuel host port prebuf = some (h.insert host port prebuf,
    if maxChannels ≤ h.channels.len then .error "too many port forward channels" else .ok ())
  := by
  rw [openChannel, insert, hopen]
  by_cases hfull : maxChannels ≤ h.channels.len
  · simp [hfull]
  · obtain ⟨k, _, hskipped, _, hfetch⟩ := h.search (Nat.lt_of_not_le hfull)
    simp [hfull, hskipped, hfetch fuel hfuel]

/-- Wherever the counter stands, `open` on a table with fewer than `MAX_CHANNELS` entries ends its
search within `MAX_CHANNELS` fetches, with an identifier under which there is no entry; it adds one
entry under it, and leaves the others alone.  With `MAX_CHANNELS` entries or more, or when the
tunnel is gone, it changes nothing and returns an error. -/
theorem openChannel_fresh (h : TunnelHandle) (host : Str) (port : BitVec 32) (prebuf : Bytes) :
  (h.teardown.gone = false → h.channels.len < maxChannels →
    ∃ id, ∃ fetches ≤ maxChannels,
      h.channels.fetchFree maxChannels h.nextId = some (id, fetches) ∧
      (∀ c ∈ h.channels.entries, c.id ≠ id) ∧
      ∀ fuel ≥ maxChannels, ∃ h', h.openChannel fuel host port prebuf = some (h', .ok ()) ∧
        h'.channels.entries = h.channels.entries ++ [Chan.controller id host port prebuf] ∧
        h' = { h with
          nextId := id + 1
          channels := h.channels ++ [Chan.controller id host port prebuf] }) ∧
  (h.teardown.gone = false → maxChannels ≤ h.channels.len → ∀ fuel,
    h.openChannel fuel host port prebuf = some (h, .error "too many port forward channels")) ∧
  (h.teardown.gone = true → ∀ fuel,
    h.openChannel fuel host port prebuf = some (h, .error "port forward tunnel is gone"))
  := by
  constructor
  · intro hopen hlen
    obtain ⟨k, hk, hskipped, hfree, hfetch⟩ := h.search hlen
    use h.nextId + BitVec.ofNat 32 k, k + 1, hk, hfetch maxChannels le_rfl
    constructor
    · intro c hc hid
      rw [← Bool.not_eq_true, Channels.containsKey_iff, ← hid] at hfree
      apply hfree
      apply List.mem_map_of_mem hc
    · intro fuel hfuel
      have hinsert : h.insert host port prebuf =
          { h with
            nextId := h.nextId + BitVec.ofNat 32 k + 1
            channels := h.channels ++
              [Chan.controller (h.nextId + BitVec.ofNat 32 k) host port prebuf] } := by
        rw [insert, if_neg (Nat.not_le_of_lt hlen), hskipped]
      refine ⟨_, ?_, ?_, hinsert⟩
      · rw [openChannel_insert hfuel hopen, if_neg (Nat.not_le_of_lt hlen)]
      · rw [hinsert, Channels.entries, List.filter_append]
        rfl
  · constructor
    · intro hopen hfull fuel
      rw [openChannel, hopen, if_neg Bool.false_ne_true, if_pos hfull]
    · intro hgone fuel
      rw [openChannel, if_pos hgone]

/-- The counter has come round to a channel that is still up. -/
def sampleRound : TunnelHandle :=
  { new with nextId := -1, channels := [Chan.controller (-1) .empty 80 []] }

theorem openChannel_round :
  ∃ h', sampleRound.openChannel maxChannels .empty 22 [] = some (h', .ok ()) ∧
    h'.channels.entries = [Chan.controller (-1) .empty 80 [], Chan.controller 0 .empty 22 []]
  := by
  obtain ⟨id, fetches, _, hfetch, _, hopens⟩ :=
    (openChannel_fresh sampleRound .empty 22 []).1 rfl (by decide)
  obtain ⟨rfl, rfl⟩ : (0 : ChannelId) = id ∧ 2 = fetches :=
    Prod.mk.inj (Option.some.inj (Eq.trans rfl hfetch))
  obtain ⟨h', hopen, hentries, _⟩ := hopens maxChannels le_rfl
  use h', hopen, hentries

end TunnelHandle

end VynxDesk.Mux

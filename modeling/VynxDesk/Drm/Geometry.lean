import Mathlib.Data.List.Nodup
import Mathlib.Data.List.ReduceOption
import Mathlib.Data.UInt
import VynxDesk.Lib.Enumerate

/-!
# Geometry of captured displays

The capture side and the advertise side of `server/drm_capturer.rs` each match the connectors of a
card with the outputs of the compositor, and take from the match the rotation and the origin of a
display.  A connector and an output are identified by their names, or by their size where that leaves
no choice; the identity of a connector does not depend on the order of the connectors
(`identityMatches_eq_map`), which is why the two sides agree.
-/

namespace VynxDesk.Drm

/-- `DrmDisplayInfo`, as far as geometry goes. -/
structure DrmDisplayInfo where
  name : String
  x : Int32
  y : Int32
  width : UInt32
  height : UInt32
  active : Bool
  deriving DecidableEq, Repr

/-- `WaylandDisplayInfo`, as far as geometry goes. -/
structure WaylandDisplayInfo where
  name : String
  x : Int32
  y : Int32
  width : Int32
  height : Int32
  logicalSize : Option (Int32 × Int32)
  transform : Int32
  deriving DecidableEq, Repr

/-- `DisplayInfo`, as far as `display_info_from_drm` fills it. -/
structure DisplayInfo where
  x : Int32
  y : Int32
  width : Int32
  height : Int32
  name : String
  online : Bool
  cursorEmbedded : Bool
  originalResolution : Int32 × Int32
  scale : Float

/-! ## Matching connectors with outputs -/

/-- `normalize_connector`. -/
def normalizeConnector (name : String) : String :=
  match name.toList.splitOn '-' with
  | [kind, discriminator, index] =>
      if (String.ofList discriminator).utf8ByteSize = 1 ∧ discriminator.all Char.isAlpha then
        String.ofList (kind ++ '-' :: index)
      else name
  | _ => name

/-- Whether an output has the size of a connector. -/
def sameSize (w : WaylandDisplayInfo) (d : DrmDisplayInfo) : Bool :=
  w.width == d.width.toInt32 && w.height == d.height.toInt32

/-- The variables `taken` and `matched` of the matching loops. -/
structure Matching where
  taken : List Bool
  matched : List (Option ℕ)
  deriving DecidableEq, Repr

namespace Matching

/-- `taken[j]`. -/
def isTaken (self : Matching) (j : ℕ) : Bool := self.taken[j]?.getD false

/-- `matched[i]`. -/
def output (self : Matching) (i : ℕ) : Option ℕ := self.matched[i]?.join

/-- `matched[i] = Some(j); taken[j] = true`. -/
def give (self : Matching) (i j : ℕ) : Matching where
  taken := self.taken.set j true
  matched := self.matched.set i (some j)

/-- `vec![false; wl.len()]` and `vec![None; drm.len()]`. -/
def empty (drm : List DrmDisplayInfo) (wl : List WaylandDisplayInfo) : Matching where
  taken := List.replicate wl.length false
  matched := List.replicate drm.length none

/-- The body of the loop of `identity_matches` that reserves names. -/
def matchName (wl : List WaylandDisplayInfo) (self : Matching) (entry : DrmDisplayInfo × ℕ) :
    Matching :=
  let dn := normalizeConnector entry.1.name
  match wl.zipIdx.find? fun (w, j) => !self.isTaken j && normalizeConnector w.name == dn with
  | some (_, j) => self.give entry.2 j
  | none => self

/-- The body of the loop of `identity_matches` that pairs by size. -/
def matchSize (drm : List DrmDisplayInfo) (wl : List WaylandDisplayInfo) (self : Matching)
    (entry : DrmDisplayInfo × ℕ) : Matching :=
  let (d, i) := entry
  if (self.output i).isSome then self
  else
    let freeSame := (wl.zipIdx.filter fun (w, j) => !self.isTaken j && sameSize w d).map Prod.snd
    let unmatchedSame := (drm.zipIdx.filter fun (o, k) =>
      (self.output k).isNone && o.width == d.width && o.height == d.height).length
    match freeSame with
    | [j] => if unmatchedSame = 1 then self.give i j else self
    | _ => self

/-- The body of the loop of `assign_wayland_outputs` that falls back to layout order. -/
def matchOrder (wl : List WaylandDisplayInfo) (self : Matching) (entry : DrmDisplayInfo × ℕ) :
    Matching :=
  let (d, i) := entry
  if (self.output i).isSome then self
  else
    let freeSameSize := (wl.zipIdx.find? fun (w, j) => !self.isTaken j && sameSize w d).map Prod.snd
    match freeSameSize.or (self.taken.findIdx? (!·)) with
    | some j => self.give i j
    | none => self

end Matching

/-- `identity_matches`. -/
def identityMatches (drm : List DrmDisplayInfo) (wl : List WaylandDisplayInfo) :
    List (Option ℕ) :=
  let named := drm.zipIdx.foldl (Matching.matchName wl) (Matching.empty drm wl)
  (drm.zipIdx.foldl (Matching.matchSize drm wl) named).matched

/-- `assign_wayland_outputs`. -/
def assignWaylandOutputs (drm : List DrmDisplayInfo) (wl : List WaylandDisplayInfo) :
    List (Option ℕ) :=
  let matched := identityMatches drm wl
  let taken := matched.reduceOption.foldl (fun taken m => taken.set m true)
    (List.replicate wl.length false)
  (drm.zipIdx.foldl (Matching.matchOrder wl) ⟨taken, matched⟩).matched

/-! ## The two sides -/

/-- `get_original_resolution`, where `changed` is what `CHANGED_RESOLUTIONS` holds. -/
def getOriginalResolution (changed : String → Option (Int32 × Int32)) (displayName : String)
    (w h : ℕ) : Int32 × Int32 :=
  (changed displayName).getD (Int32.ofNat w, Int32.ofNat h)

section

variable (changed : String → Option (Int32 × Int32))

/-- `display_info_from_drm`. -/
def displayInfoFromDrm (d : DrmDisplayInfo) : DisplayInfo where
  x := d.x
  y := d.y
  width := d.width.toInt32
  height := d.height.toInt32
  name := d.name
  online := d.active
  cursorEmbedded := false
  originalResolution := getOriginalResolution changed d.name d.width.toNat d.height.toNat
  scale := 1.0

/-- `as usize`. -/
def asUsize (n : Int32) : ℕ := n.toInt64.toUInt64.toNat

/-- The quarter turn in the loop of `augment_with_wayland_geometry_from`. -/
def augmentTurn (isIdentity : Bool) (w : WaylandDisplayInfo) (d : DrmDisplayInfo)
    (info : DisplayInfo) : DisplayInfo :=
  if isIdentity && (w.transform == 90 || w.transform == 270) then
    { info with
      width := info.height
      height := info.width
      originalResolution :=
        getOriginalResolution changed d.name (asUsize info.height) (asUsize info.width) }
  else info

/-- The logical size in the loop of `augment_with_wayland_geometry_from`. -/
def augmentScale (w : WaylandDisplayInfo) (d : DrmDisplayInfo) (info : DisplayInfo) :
    DisplayInfo :=
  match w.logicalSize with
  | some (lw, lh) =>
      if 0 < lw ∧ 0 < lh then
        { info with
          scale := Float.ofInt info.width.toInt / Float.ofInt lw.toInt
          originalResolution := getOriginalResolution changed d.name (asUsize lw) (asUsize lh) }
      else info
  | none => info

/-- The body of the loop of `augment_with_wayland_geometry_from` for a display with the output
`w`. -/
def augment (originOnly isIdentity : Bool) (w : WaylandDisplayInfo) (d : DrmDisplayInfo)
    (info : DisplayInfo) : DisplayInfo :=
  let info := augmentTurn changed isIdentity w d { info with x := w.x, y := w.y }
  if originOnly then info else augmentScale changed w d info

/-- `augment_with_wayland_geometry_from`. -/
def augmentWithWaylandGeometryFrom (drm : List DrmDisplayInfo) (wl : List WaylandDisplayInfo)
    (matched : List (Option ℕ)) : List DisplayInfo :=
  let infos := drm.map (displayInfoFromDrm changed)
  let originOnly := wl.length == 1
  if drm = [] ∨ wl = [] ∨ (originOnly ∧ 1 < drm.length) then infos
  else
    let identity := identityMatches drm wl
    infos.mapIdx fun i info =>
      match matched[i]?.join.bind (wl[·]?), drm[i]? with
      | some w, some d =>
          let isIdentity := identity[i]?.join.isSome && identity[i]?.join == matched[i]?.join
          augment changed originOnly isIdentity w d info
      | _, _ => info

/-- `augment_with_wayland_geometry`, on the snapshot `wl`. -/
def augmentWithWaylandGeometry (drm : List DrmDisplayInfo) (wl : List WaylandDisplayInfo) :
    List DisplayInfo :=
  augmentWithWaylandGeometryFrom changed drm wl (assignWaylandOutputs drm wl)

/-- `transform_and_origin`. -/
def transformAndOrigin (drm : List DrmDisplayInfo) (wireIdx : ℕ) (wl : List WaylandDisplayInfo) :
    Int32 × Option (Int32 × Int32) :=
  if wl = [] ∨ (wl.length = 1 ∧ 1 < drm.length) then (0, none)
  else
    let assignment := assignWaylandOutputs drm wl
    let transform :=
      (((identityMatches drm wl)[wireIdx]?.join.bind (wl[·]?)).map WaylandDisplayInfo.transform).map
        fun t => if t = 90 ∨ t = 270 then t else 0
    let origin := (augmentWithWaylandGeometryFrom changed drm wl assignment)[wireIdx]?.map
      fun di => (di.x, di.y)
    (transform.getD 0, origin)

end

/-- Whether `transform_and_origin` sets `UNROTATED_SNAPSHOT_PENDING`. -/
def setsUnrotatedSnapshotPending (drm : List DrmDisplayInfo) (wl : List WaylandDisplayInfo) : Bool :=
  wl = [] ∧ drm ≠ []

/-- `rotated_dims`. -/
def rotatedDims (transform : Int32) (w h : ℕ) : ℕ × ℕ :=
  if transform = 90 ∨ transform = 270 then (h, w) else (w, h)

/-! ## The matching loops -/

namespace Matching

variable {drm : List DrmDisplayInfo} {wl : List WaylandDisplayInfo} {m : Matching}

/-- What every matching loop keeps: the outputs taken are those given, each to one connector. -/
structure Sound (drm : List DrmDisplayInfo) (wl : List WaylandDisplayInfo) (m : Matching) : Prop where
  taken_length : m.taken.length = wl.length
  matched_length : m.matched.length = drm.length
  taken_iff : ∀ j, m.isTaken j = true ↔ ∃ i, m.output i = some j
  inj : ∀ i i' j, m.output i = some j → m.output i' = some j → i = i'

theorem Sound.lt (h : Sound drm wl m) {i j : ℕ} (hij : m.output i = some j) :
  j < wl.length
  := by
  have htaken := (h.taken_iff j).mpr ⟨i, hij⟩
  rw [← h.taken_length]
  by_contra hge
  rw [isTaken, List.getElem?_eq_none (by omega)] at htaken
  cases htaken

theorem sound_empty :
  Sound drm wl (empty drm wl)
  := by
  have hout : ∀ i, (empty drm wl).output i = none := by
    intro i
    simp only [output, empty, List.getElem?_replicate]
    split <;> rfl
  refine ⟨List.length_replicate, List.length_replicate, ?_, ?_⟩
  · intro j
    have hfree : (empty drm wl).isTaken j = false := by
      simp only [isTaken, empty, List.getElem?_replicate]
      split <;> rfl
    simp [hfree, hout]
  · intro i i' j h
    rw [hout] at h
    cases h

theorem output_give {i j : ℕ} (hi : i < m.matched.length) (k : ℕ) :
  (m.give i j).output k = if k = i then some j else m.output k
  := by
  simp only [output, give, List.getElem?_set]
  split
  next h => rw [if_pos h.symm, Option.join_some]
  next h => rw [if_neg (Ne.symm h)]

theorem isTaken_give {i j : ℕ} (hj : j < m.taken.length) (k : ℕ) :
  (m.give i j).isTaken k = (decide (k = j) || m.isTaken k)
  := by
  simp only [isTaken, give, List.getElem?_set]
  split
  next h => simp [h.symm, hj]
  next h => simp [Ne.symm h]

/-- A free output is given to a connector without one. -/
theorem Sound.give (h : Sound drm wl m) {i j : ℕ} (hi : i < drm.length) (hj : j < wl.length)
    (hfree : m.isTaken j = false) (hnone : m.output i = none) :
  Sound drm wl (m.give i j)
  := by
  have hout := output_give (m := m) (j := j) (by rwa [h.matched_length])
  have htaken := isTaken_give (m := m) (i := i) (by rwa [h.taken_length])
  have hnew : ∀ k, m.output k ≠ some j := by
    intro k hk
    rw [(h.taken_iff j).mpr ⟨k, hk⟩] at hfree
    cases hfree
  refine ⟨by simp [Matching.give, h.taken_length], by simp [Matching.give, h.matched_length],
    ?_, ?_⟩
  · intro k
    rw [htaken, Bool.or_eq_true, decide_eq_true_eq, h.taken_iff]
    constructor
    · rintro (rfl | ⟨i', hi'⟩)
      · exact ⟨i, by rw [hout, if_pos rfl]⟩
      · use i'
        rw [hout, if_neg, hi']
        rintro rfl
        rw [hnone] at hi'
        cases hi'
    · rintro ⟨i', hi'⟩
      rw [hout] at hi'
      split at hi'
      · left
        exact (Option.some.inj hi').symm
      · right
        exact ⟨i', hi'⟩
  · intro a b k ha hb
    rw [hout] at ha hb
    split at ha <;> split at hb
    · omega
    · obtain rfl := Option.some.inj ha
      exact absurd hb (hnew b)
    · obtain rfl := Option.some.inj hb
      exact absurd ha (hnew a)
    · apply h.inj a b k ha hb

/-- A free output of a search through the outputs. -/
theorem free_of_find {p : WaylandDisplayInfo × ℕ → Bool} {w : WaylandDisplayInfo} {j : ℕ}
    (h : wl.zipIdx.find? (fun x => !m.isTaken x.2 && p x) = some (w, j)) :
  j < wl.length ∧ m.isTaken j = false
  := by
  have hmem := List.mem_of_find?_eq_some h
  have hp := List.find?_some h
  rw [List.mem_zipIdx_iff_getElem?] at hmem
  rw [Bool.and_eq_true, Bool.not_eq_true'] at hp
  apply And.intro (List.getElem?_eq_some_iff.mp hmem).1 hp.1

end Matching

/-! ## The identity of a connector -/

/-- The first output with the name of a connector. -/
def nameMatch (wl : List WaylandDisplayInfo) (d : DrmDisplayInfo) : Option ℕ :=
  wl.findIdx? fun w => normalizeConnector w.name == normalizeConnector d.name

/-- Whether no connector has the name of the output `j`. -/
def nameFree (drm : List DrmDisplayInfo) (wl : List WaylandDisplayInfo) (j : ℕ) : Bool :=
  drm.all fun d => nameMatch wl d != some j

/-- Whether `o` has no output of its name, and the size of `d`. -/
def unmatchedSame (wl : List WaylandDisplayInfo) (d o : DrmDisplayInfo) : Bool :=
  (nameMatch wl o).isNone && o.width == d.width && o.height == d.height

/-- The only free output of the size of `d`, where `d` is the only unmatched connector of that
size. -/
def sizeMatch (drm : List DrmDisplayInfo) (wl : List WaylandDisplayInfo) (d : DrmDisplayInfo) :
    Option ℕ :=
  match (wl.zipIdx.filter fun (w, j) => nameFree drm wl j && sameSize w d).map Prod.snd with
  | [j] => if drm.countP (unmatchedSame wl d) = 1 then some j else none
  | _ => none

/-- The output that a connector is identified with. -/
def identityOf (drm : List DrmDisplayInfo) (wl : List WaylandDisplayInfo) (d : DrmDisplayInfo) :
    Option ℕ :=
  (nameMatch wl d).or (sizeMatch drm wl d)

/-- The identity of a connector does not depend on the order of the connectors. -/
theorem identityOf_perm {drm drm' : List DrmDisplayInfo} (hperm : drm.Perm drm')
    (wl : List WaylandDisplayInfo) :
  identityOf drm wl = identityOf drm' wl
  := by
  funext d
  have hfree : nameFree drm wl = nameFree drm' wl := by
    funext j
    apply hperm.all_eq
  rw [identityOf, identityOf, sizeMatch, sizeMatch, hfree, hperm.countP_eq]

theorem sameSize_iff {w : WaylandDisplayInfo} {d : DrmDisplayInfo} :
  sameSize w d = true ↔ w.width = d.width.toInt32 ∧ w.height = d.height.toInt32
  := by
  rw [sameSize, Bool.and_eq_true, beq_iff_eq, beq_iff_eq]

theorem toInt32_inj {a b : UInt32} (h : a.toInt32 = b.toInt32) :
  a = b
  := by
  have hback := congrArg Int32.toUInt32 h
  rwa [UInt32.toUInt32_toInt32, UInt32.toUInt32_toInt32] at hback

/-- Connectors of the size of one output have the same size. -/
theorem sameSize_eq {w : WaylandDisplayInfo} {d d' : DrmDisplayInfo} (h : sameSize w d = true)
    (h' : sameSize w d' = true) :
  d.width = d'.width ∧ d.height = d'.height
  := by
  rw [sameSize_iff] at h h'
  apply And.intro
  · apply toInt32_inj (h.1.symm.trans h'.1)
  · apply toInt32_inj (h.2.symm.trans h'.2)

theorem sizeMatch_eq_some {drm : List DrmDisplayInfo} {wl : List WaylandDisplayInfo}
    {d : DrmDisplayInfo} {j : ℕ} (h : sizeMatch drm wl d = some j) :
  (wl.zipIdx.filter fun (w, j) => nameFree drm wl j && sameSize w d).map Prod.snd = [j]
    ∧ drm.countP (unmatchedSame wl d) = 1
  := by
  rw [sizeMatch] at h
  split at h
  next j' hlist =>
      split at h
      next hcount =>
          obtain rfl := Option.some.inj h
          exact ⟨hlist, hcount⟩
      next => cases h
  next => cases h

/-- The output that a connector is paired with has its size and no other connector's name. -/
theorem of_sizeMatch {drm : List DrmDisplayInfo} {wl : List WaylandDisplayInfo}
    {d : DrmDisplayInfo} {j : ℕ} (h : sizeMatch drm wl d = some j) :
  nameFree drm wl j = true ∧ (∃ w, wl[j]? = some w ∧ sameSize w d = true)
    ∧ ∀ j' w', wl[j']? = some w' → sameSize w' d = true → nameFree drm wl j' = true → j' = j
  := by
  obtain ⟨hlist, -⟩ := sizeMatch_eq_some h
  have hmem : ∀ j', j' ∈ (wl.zipIdx.filter fun (w, j) =>
      nameFree drm wl j && sameSize w d).map Prod.snd ↔
        ∃ w', wl[j']? = some w' ∧ nameFree drm wl j' = true ∧ sameSize w' d = true := by
    intro j'
    simp only [List.mem_map, List.mem_filter, List.mem_zipIdx_iff_getElem?, Bool.and_eq_true]
    constructor
    · rintro ⟨⟨w', j''⟩, ⟨hw, hp⟩, rfl⟩
      exact ⟨w', hw, hp⟩
    · rintro ⟨w', hw, hp⟩
      exact ⟨(w', j'), ⟨hw, hp⟩, rfl⟩
  rw [hlist] at hmem
  obtain ⟨w, hw, hfree, hsize⟩ := (hmem j).mp (List.mem_singleton_self j)
  refine ⟨hfree, ⟨w, hw, hsize⟩, ?_⟩
  intro j' w' hw' hsize' hfree'
  apply List.mem_singleton.mp
  rw [hmem]
  exact ⟨w', hw', hfree', hsize'⟩

section

variable {drm : List DrmDisplayInfo} {wl : List WaylandDisplayInfo}

/-- The names of the connectors are different. -/
def NamesDiffer (drm : List DrmDisplayInfo) : Prop :=
  (drm.map fun d => normalizeConnector d.name).Nodup

theorem NamesDiffer.eq (h : NamesDiffer drm) {i k : ℕ} {d d' : DrmDisplayInfo}
    (hi : drm[i]? = some d) (hk : drm[k]? = some d')
    (hname : normalizeConnector d.name = normalizeConnector d'.name) :
  i = k
  := by
  have hlt : i < (drm.map fun d => normalizeConnector d.name).length := by
    rw [List.length_map]
    exact (List.getElem?_eq_some_iff.mp hi).1
  apply (List.getElem?_inj hlt h).mp
  rw [List.getElem?_map, List.getElem?_map, hi, hk, Option.map_some, Option.map_some, hname]

theorem name_of_nameMatch {d : DrmDisplayInfo} {j : ℕ} (h : nameMatch wl d = some j) :
  ∃ w, wl[j]? = some w ∧ normalizeConnector w.name = normalizeConnector d.name
  := by
  obtain ⟨hj, hname, -⟩ := List.findIdx?_eq_some_iff_getElem.mp h
  exact ⟨wl[j], List.getElem?_eq_getElem hj, by simpa using hname⟩

namespace Matching

/-- The connectors have the outputs that `f` gives them, and those before `k` that have none from
`f` the outputs that `o` gives them. -/
structure Reached (drm : List DrmDisplayInfo) (wl : List WaylandDisplayInfo)
    (f o : DrmDisplayInfo → Option ℕ) (k : ℕ) (m : Matching) : Prop where
  sound : Sound drm wl m
  output : ∀ i d, drm[i]? = some d → m.output i = (f d).or (if i < k then o d else none)

/-- Gives the output, if any, to a connector that has none. -/
def offer (m : Matching) (i : ℕ) (output : Option ℕ) : Matching :=
  if (m.output i).isSome then m
  else
    match output with
    | some j => m.give i j
    | none => m

variable {f o : DrmDisplayInfo → Option ℕ} {k : ℕ} {m : Matching}

theorem Reached.step (h : Reached drm wl f o k m) {d : DrmDisplayInfo} (hk : drm[k]? = some d)
    (hfree : ∀ j, f d = none → o d = some j → j < wl.length ∧ m.isTaken j = false) :
  Reached drm wl f o (k + 1) (m.offer k (o d))
  := by
  have hlt : k < drm.length := (List.getElem?_eq_some_iff.mp hk).1
  have hself : m.output k = f d := by
    rw [h.output k d hk, if_neg (Nat.lt_irrefl k), Option.or_none]
  have hrest : ∀ {m' : Matching}, m'.output k = (f d).or (o d) →
      (∀ i, i ≠ k → m'.output i = m.output i) →
      ∀ i d, drm[i]? = some d → m'.output i = (f d).or (if i < k + 1 then o d else none) := by
    intro m' hk' hother i d' hi
    rcases eq_or_ne i k with rfl | hne
    · obtain rfl := Option.some.inj (hi.symm.trans hk)
      rw [hk', if_pos (Nat.lt_succ_self i)]
    · have hiff : i < k ↔ i < k + 1 := by
        omega
      rw [hother i hne, h.output i d' hi]
      simp only [hiff]
  rw [offer.eq_def, hself]
  cases hf : f d with
  | some j =>
      rw [if_pos Option.isSome_some]
      refine ⟨h.sound, hrest ?_ fun i _ => rfl⟩
      rw [hself, hf, Option.some_or]
  | none =>
      rw [if_neg nofun]
      cases ho : o d with
      | none =>
          refine ⟨h.sound, hrest ?_ fun i _ => rfl⟩
          rw [hself, hf, ho, Option.none_or]
      | some j =>
          obtain ⟨hj, htaken⟩ := hfree j hf ho
          have hout := output_give (m := m) (i := k) (j := j) (by rwa [h.sound.matched_length])
          refine ⟨h.sound.give hlt hj htaken (hself.trans hf), hrest ?_ ?_⟩
          · rw [hf, ho, Option.none_or, hout, if_pos rfl]
          · intro i hne
            rw [hout, if_neg hne]

theorem reached_empty :
  Reached drm wl (fun _ => none) o 0 (empty drm wl)
  := by
  refine ⟨sound_empty, ?_⟩
  intro i d _
  simp only [output, empty, List.getElem?_replicate, Nat.not_lt_zero, if_false, Option.or_none]
  split <;> rfl

/-- Where a loop ends, the next one begins. -/
theorem Reached.next {o' : DrmDisplayInfo → Option ℕ} (h : Reached drm wl f o drm.length m) :
  Reached drm wl (fun d => (f d).or (o d)) o' 0 m
  := by
  refine ⟨h.sound, ?_⟩
  intro i d hi
  rw [h.output i d hi, if_pos (List.getElem?_eq_some_iff.mp hi).1, if_neg (Nat.not_lt_zero i),
    Option.or_none]

theorem Reached.get (h : Reached drm wl f o k m) {i j : ℕ} (hi : m.output i = some j) :
  ∃ d, drm[i]? = some d
  := by
  have hlt : i < drm.length := by
    by_contra hge
    rw [Matching.output, List.getElem?_eq_none (by rw [h.sound.matched_length]; omega)] at hi
    cases hi
  use drm[i]
  apply List.getElem?_eq_getElem hlt

/-- An output of the name of a connector that no other connector has. -/
theorem Reached.matchName (hnames : NamesDiffer drm)
    (h : Reached drm wl (fun _ => none) (nameMatch wl) k m) {d : DrmDisplayInfo}
    (hk : drm[k]? = some d) :
  Reached drm wl (fun _ => none) (nameMatch wl) (k + 1) (matchName wl m (d, k))
  := by
  have hfree : ∀ j w, wl[j]? = some w → normalizeConnector w.name = normalizeConnector d.name →
      m.isTaken j = false := by
    intro j w hw hname
    by_contra htaken
    obtain ⟨i, hi⟩ := (h.sound.taken_iff j).mp (Bool.not_eq_false _ ▸ htaken)
    obtain ⟨d', hget⟩ := h.get hi
    have hout := h.output i d' hget
    rw [hi, Option.none_or] at hout
    split at hout
    next hlt =>
        obtain ⟨w', hw', hname'⟩ := name_of_nameMatch hout.symm
        obtain rfl := Option.some.inj (hw.symm.trans hw')
        have := hnames.eq hget hk (hname'.symm.trans hname)
        omega
    next => cases hout
  have hfind : (wl.zipIdx.find? fun (w, j) =>
      !m.isTaken j && normalizeConnector w.name == normalizeConnector d.name).map Prod.snd
        = nameMatch wl d := by
    apply map_snd_find?_zipIdx
    intro j w hw
    by_cases hname : normalizeConnector w.name = normalizeConnector d.name
    · simp [hfree j w hw hname]
    · simp [hname]
  have hstep := h.step hk (by
    intro j _ hj
    obtain ⟨w, hw, hname⟩ := name_of_nameMatch hj
    exact ⟨(List.getElem?_eq_some_iff.mp hw).1, hfree j w hw hname⟩)
  have hnone : m.output k = none := by
    rw [h.output k d hk, if_neg (Nat.lt_irrefl k), Option.or_none]
  rw [offer.eq_def, hnone, ← hfind] at hstep
  rw [Matching.matchName]
  split
  next w j hw =>
      rw [hw] at hstep
      exact hstep
  next hw =>
      rw [hw] at hstep
      exact hstep

/-- Two unmatched connectors of one size are not paired. -/
theorem sizeMatch_eq_none {i k : ℕ} {d d' : DrmDisplayInfo} (hi : drm[i]? = some d)
    (hk : drm[k]? = some d') (hne : i ≠ k) (hd : nameMatch wl d = none)
    (hd' : nameMatch wl d' = none) (hsize : d'.width = d.width ∧ d'.height = d.height) :
  sizeMatch drm wl d = none
  := by
  cases hmatch : sizeMatch drm wl d with
  | none => rfl
  | some j =>
      have hcount := (sizeMatch_eq_some hmatch).2
      have htwo : 2 ≤ drm.countP (unmatchedSame wl d) := by
        apply two_le_countP hi hk hne
        · simp [unmatchedSame, hd]
        · simp [unmatchedSame, hd', hsize.1, hsize.2]
      omega

/-- Where an unmatched connector is looked at, the free outputs of its size are those whose name no
connector has. -/
theorem Reached.isTaken_eq (h : Reached drm wl (nameMatch wl) (sizeMatch drm wl) k m)
    {d : DrmDisplayInfo} (hk : drm[k]? = some d) (hnone : nameMatch wl d = none) {j : ℕ}
    {w : WaylandDisplayInfo} (hw : wl[j]? = some w) (hsize : sameSize w d = true) :
  m.isTaken j = !nameFree drm wl j
  := by
  rw [Bool.eq_iff_iff, h.sound.taken_iff, Bool.not_eq_true', nameFree, List.all_eq_false]
  constructor
  · rintro ⟨i, hi⟩
    obtain ⟨d', hget⟩ := h.get hi
    rw [h.output i d' hget] at hi
    refine ⟨d', List.mem_of_getElem? hget, ?_⟩
    cases hname : nameMatch wl d' with
    | some j' =>
        rw [hname, Option.some_or] at hi
        simp [hi]
    | none =>
        rw [hname, Option.none_or] at hi
        split at hi
        next hlt =>
            obtain ⟨-, ⟨w', hw', hsize'⟩, -⟩ := of_sizeMatch hi
            obtain rfl := Option.some.inj (hw.symm.trans hw')
            rw [sizeMatch_eq_none hget hk (by omega) hname hnone (sameSize_eq hsize hsize')] at hi
            cases hi
        next => cases hi
  · rintro ⟨d', hmem, hname⟩
    obtain ⟨i, hi⟩ := List.mem_iff_getElem?.mp hmem
    use i
    rw [h.output i d' hi]
    simp only [bne_iff_ne, ne_eq, not_not] at hname
    rw [hname, Option.some_or]

/-- Where an unmatched connector is looked at, the unmatched connectors of its size are those that
have no output of their name. -/
theorem Reached.count_eq (h : Reached drm wl (nameMatch wl) (sizeMatch drm wl) k m)
    {d : DrmDisplayInfo} (hk : drm[k]? = some d) (hnone : nameMatch wl d = none) :
  (drm.zipIdx.filter fun (o, k) =>
      (m.output k).isNone && o.width == d.width && o.height == d.height).length
    = drm.countP (unmatchedSame wl d)
  := by
  apply length_filter_zipIdx
  intro i d' hi
  change ((m.output i).isNone && d'.width == d.width && d'.height == d.height) = _
  rw [unmatchedSame, h.output i d' hi]
  by_cases hsize : d'.width = d.width ∧ d'.height = d.height
  · cases hname : nameMatch wl d' with
    | some j => rw [Option.some_or]
    | none =>
        rw [Option.none_or]
        split
        next hlt =>
            rw [sizeMatch_eq_none hi hk (by omega) hname hnone ⟨hsize.1.symm, hsize.2.symm⟩]
        next => rfl
  · rw [Bool.and_assoc, Bool.and_assoc]
    have hfalse : (d'.width == d.width && d'.height == d.height) = false := by
      simpa using hsize
    rw [hfalse, Bool.and_false, Bool.and_false]

/-- A pair of the only free output and the only unmatched connector of a size. -/
theorem Reached.matchSize (h : Reached drm wl (nameMatch wl) (sizeMatch drm wl) k m)
    {d : DrmDisplayInfo} (hk : drm[k]? = some d) :
  Reached drm wl (nameMatch wl) (sizeMatch drm wl) (k + 1) (matchSize drm wl m (d, k))
  := by
  have hstep := h.step hk (by
    intro j hnone hj
    obtain ⟨hname, ⟨w, hw, hsize⟩, -⟩ := of_sizeMatch hj
    refine ⟨(List.getElem?_eq_some_iff.mp hw).1, ?_⟩
    rw [h.isTaken_eq hk hnone hw hsize, hname]
    rfl)
  suffices hoffer : Matching.matchSize drm wl m (d, k) = m.offer k (sizeMatch drm wl d) by
    rwa [hoffer]
  rw [Matching.matchSize.eq_def, offer.eq_def]
  dsimp only
  split
  next => rfl
  next hsome =>
      have hnone : nameMatch wl d = none := by
        rw [h.output k d hk, if_neg (Nat.lt_irrefl k), Option.or_none,
          Option.not_isSome_iff_eq_none] at hsome
        exact hsome
      have hlist : (wl.zipIdx.filter fun (w, j) => !m.isTaken j && sameSize w d)
          = wl.zipIdx.filter fun (w, j) => nameFree drm wl j && sameSize w d := by
        apply List.filter_congr
        rintro ⟨w, j⟩ hmem
        rw [List.mem_zipIdx_iff_getElem?] at hmem
        cases hsize : sameSize w d with
        | true => simp [h.isTaken_eq hk hnone hmem hsize, hsize]
        | false => simp [hsize]
      rw [h.count_eq hk hnone, hlist, sizeMatch.eq_def]
      split
      next => split <;> rfl
      next => rfl

variable (wl) in
/-- The loops of `identity_matches` identify the connectors. -/
theorem reached_identity (hnames : NamesDiffer drm) :
  Reached drm wl (identityOf drm wl) (fun _ => none) 0
    (drm.zipIdx.foldl (Matching.matchSize drm wl)
      (drm.zipIdx.foldl (Matching.matchName wl) (empty drm wl)))
  := by
  have hnamed : Reached drm wl (fun _ => none) (nameMatch wl) drm.length
      (drm.zipIdx.foldl (Matching.matchName wl) (empty drm wl)) := by
    apply foldl_zipIdx_invariant _ _ reached_empty
    intro i d m hi hm
    apply hm.matchName hnames hi
  apply Reached.next (f := nameMatch wl) (o := sizeMatch drm wl)
  apply foldl_zipIdx_invariant _ _ hnamed.next
  intro i d m hi hm
  apply hm.matchSize hi

/-- Connectors before `k` have kept the outputs they had in `m₀`, or have been given one, unless all
outputs are taken. -/
structure Filled (drm : List DrmDisplayInfo) (wl : List WaylandDisplayInfo) (m₀ : Matching) (k : ℕ)
    (m : Matching) : Prop where
  sound : Sound drm wl m
  keeps : ∀ i j, m₀.output i = some j → m.output i = some j
  full : ∀ i < k, i < drm.length → m.output i = none → ∀ j < wl.length, m.isTaken j = true

/-- The output that `matchOrder` offers to a connector. -/
def fallback (wl : List WaylandDisplayInfo) (m : Matching) (d : DrmDisplayInfo) : Option ℕ :=
  ((wl.zipIdx.find? fun (w, j) => !m.isTaken j && sameSize w d).map Prod.snd).or
    (m.taken.findIdx? (!·))

theorem matchOrder_eq (m : Matching) (d : DrmDisplayInfo) (i : ℕ) :
  matchOrder wl m (d, i) = m.offer i (m.fallback wl d)
  := by
  rfl

/-- A free output is offered if there is one. -/
theorem fallback_spec (h : Sound drm wl m) (d : DrmDisplayInfo) :
  (∀ j, m.fallback wl d = some j → j < wl.length ∧ m.isTaken j = false)
    ∧ (m.fallback wl d = none → ∀ j < wl.length, m.isTaken j = true)
  := by
  rw [fallback]
  cases hfind : wl.zipIdx.find? fun (w, j) => !m.isTaken j && sameSize w d with
  | some entry =>
      obtain ⟨w, j⟩ := entry
      rw [Option.map_some, Option.some_or]
      constructor
      · rintro _ ⟨⟩
        apply free_of_find (p := fun x => sameSize x.1 d) hfind
      · intro hnone
        cases hnone
  | none =>
      rw [Option.map_none, Option.none_or]
      constructor
      · intro j hj
        obtain ⟨hlt, htaken, -⟩ := List.findIdx?_eq_some_iff_getElem.mp hj
        rw [← h.taken_length]
        refine ⟨hlt, ?_⟩
        rw [isTaken, List.getElem?_eq_getElem hlt, Option.getD_some]
        simpa using htaken
      · intro hnone j hj
        rw [← h.taken_length] at hj
        rw [List.findIdx?_eq_none_iff] at hnone
        rw [isTaken, List.getElem?_eq_getElem hj, Option.getD_some]
        simpa using hnone _ (List.getElem_mem hj)

theorem Filled.matchOrder {m₀ : Matching} (h : Filled drm wl m₀ k m) {d : DrmDisplayInfo}
    (hk : drm[k]? = some d) :
  Filled drm wl m₀ (k + 1) (matchOrder wl m (d, k))
  := by
  have hlt : k < drm.length := (List.getElem?_eq_some_iff.mp hk).1
  obtain ⟨hoffer, hall⟩ := fallback_spec h.sound d
  have hskip : (m.output k = none → ∀ j < wl.length, m.isTaken j = true) →
      Filled drm wl m₀ (k + 1) m := by
    intro hself
    refine ⟨h.sound, h.keeps, ?_⟩
    intro i hi hlt
    rcases Nat.lt_succ_iff_lt_or_eq.mp hi with hi | rfl
    · apply h.full i hi hlt
    · apply hself
  rw [matchOrder_eq, offer.eq_def]
  split
  next hsome =>
      apply hskip
      intro hnone
      rw [hnone] at hsome
      cases hsome
  next hnone =>
      rw [Option.not_isSome_iff_eq_none] at hnone
      split
      next j hj =>
          obtain ⟨hj, hfree⟩ := hoffer j hj
          have hout := output_give (m := m) (i := k) (j := j) (by rwa [h.sound.matched_length])
          have htaken := isTaken_give (m := m) (i := k) (j := j) (by rwa [h.sound.taken_length])
          refine ⟨h.sound.give hlt hj hfree hnone, ?_, ?_⟩
          · intro i j' hi
            have hi := h.keeps i j' hi
            rw [hout, if_neg, hi]
            rintro rfl
            rw [hnone] at hi
            cases hi
          · intro i hi hlt hi' j' hj'
            rw [hout] at hi'
            split at hi'
            next => cases hi'
            next hne =>
                rw [htaken, h.full i (by omega) hlt hi' j' hj', Bool.or_true]
      next hj =>
          apply hskip
          intro _
          apply hall hj

/-- The outputs of a list of matches are marked as taken. -/
theorem getD_foldl_set (xs : List ℕ) (j : ℕ) :
  ∀ taken : List Bool, (∀ x ∈ xs, x < taken.length) →
    ((xs.foldl (fun taken m => taken.set m true) taken)[j]?.getD false = true
      ↔ taken[j]?.getD false = true ∨ j ∈ xs)
  := by
  induction xs with
  | nil =>
      intro taken _
      simp
  | cons x xs ih =>
      intro taken hlt
      rw [List.forall_mem_cons] at hlt
      rw [List.foldl_cons, ih _ (by simpa using hlt.2), List.getElem?_set, List.mem_cons]
      split
      next h => simp [h, h ▸ hlt.1]
      next h => simp [Ne.symm h]

/-- The state in which `assign_wayland_outputs` begins its loop. -/
theorem filled_identity (h : Sound drm wl m) :
  Filled drm wl m 0
    ⟨m.matched.reduceOption.foldl (fun taken m => taken.set m true)
      (List.replicate wl.length false), m.matched⟩
  := by
  have hmem : ∀ j, j ∈ m.matched.reduceOption ↔ ∃ i, m.output i = some j := by
    intro j
    rw [List.reduceOption_mem_iff, List.mem_iff_getElem?]
    apply exists_congr
    intro i
    rw [output]
    cases m.matched[i]? <;> simp
  have hlength : ∀ (xs : List ℕ) (taken : List Bool),
      (xs.foldl (fun taken m => taken.set m true) taken).length = taken.length := by
    intro xs
    induction xs with
    | nil =>
        intro taken
        rfl
    | cons x xs ih =>
        intro taken
        rw [List.foldl_cons, ih, List.length_set]
  have htaken := getD_foldl_set m.matched.reduceOption
  refine ⟨⟨?_, h.matched_length, ?_, h.inj⟩, fun i j hi => hi, nofun⟩
  · rw [hlength, List.length_replicate]
  · intro j
    rw [isTaken, htaken, hmem]
    · have hfalse : (List.replicate wl.length false)[j]?.getD false = false := by
        rw [List.getElem?_replicate]
        split <;> rfl
      rw [hfalse]
      simp [output]
    · intro x hx
      obtain ⟨i, hi⟩ := (hmem x).mp hx
      rw [List.length_replicate]
      apply h.lt hi

end Matching

/-- The connectors are identified one by one. -/
theorem identityMatches_eq_map (hnames : NamesDiffer drm) :
  identityMatches drm wl = drm.map (identityOf drm wl)
  := by
  obtain ⟨hsound, hout⟩ := Matching.reached_identity wl hnames
  apply List.ext_getElem?
  intro i
  have hlength : (identityMatches drm wl).length = drm.length := hsound.matched_length
  rw [List.getElem?_map]
  cases hd : drm[i]? with
  | none =>
      rw [Option.map_none, List.getElem?_eq_none]
      rw [hlength]
      exact List.getElem?_eq_none_iff.mp hd
  | some d =>
      have hi : i < (identityMatches drm wl).length := by
        rw [hlength]
        exact (List.getElem?_eq_some_iff.mp hd).1
      have hout := hout i d hd
      rw [if_neg (Nat.not_lt_zero i), Option.or_none] at hout
      change (identityMatches drm wl)[i]?.join = identityOf drm wl d at hout
      rw [List.getElem?_eq_getElem hi, Option.join_some] at hout
      rw [List.getElem?_eq_getElem hi, Option.map_some, hout]

variable (wl) in
/-- The loop of `assign_wayland_outputs` fills up the identities. -/
theorem filled_assign (hnames : NamesDiffer drm) :
  ∃ m₀ m, Matching.Filled drm wl m₀ drm.length m ∧ m₀.matched = identityMatches drm wl
    ∧ m.matched = assignWaylandOutputs drm wl
  := by
  have hsound := (Matching.reached_identity wl hnames).sound
  refine ⟨_, _, ?_, rfl, rfl⟩
  apply foldl_zipIdx_invariant _ _ (Matching.filled_identity hsound)
  intro i d m hi hm
  apply hm.matchOrder hi

/-! ## What is advertised and what is captured -/

/-- Whether nothing is taken from the compositor. -/
def Unaugmented (drm : List DrmDisplayInfo) (wl : List WaylandDisplayInfo) : Prop :=
  wl = [] ∨ (wl.length = 1 ∧ 1 < drm.length)

/-- Whether a connector is identified with an output that is turned by a quarter. -/
def Quartered (drm : List DrmDisplayInfo) (wl : List WaylandDisplayInfo) (d : DrmDisplayInfo) :
    Prop :=
  ¬ Unaugmented drm wl ∧ ∃ j w, identityOf drm wl d = some j ∧ wl[j]? = some w
    ∧ (w.transform = 90 ∨ w.transform = 270)

theorem quartered_perm {drm' : List DrmDisplayInfo} (hperm : drm.Perm drm') (d : DrmDisplayInfo) :
  Quartered drm wl d ↔ Quartered drm' wl d
  := by
  rw [Quartered, Quartered, Unaugmented, Unaugmented, hperm.length_eq, identityOf_perm hperm]

variable {changed : String → Option (Int32 × Int32)} {i : ℕ} {d : DrmDisplayInfo}

theorem identity_getElem? (hnames : NamesDiffer drm) (hi : drm[i]? = some d) :
  (identityMatches drm wl)[i]?.join = identityOf drm wl d
  := by
  rw [identityMatches_eq_map hnames, List.getElem?_map, hi, Option.map_some, Option.join_some]

/-- An identified connector is assigned the output it is identified with. -/
theorem assign_of_identity (hnames : NamesDiffer drm) (hi : drm[i]? = some d) {j : ℕ}
    (h : identityOf drm wl d = some j) :
  (assignWaylandOutputs drm wl)[i]?.join = some j
  := by
  obtain ⟨m₀, m, hfilled, hm₀, hm⟩ := filled_assign wl hnames
  have hkeep := hfilled.keeps i j
  rw [Matching.output, Matching.output, hm₀, hm, identity_getElem? hnames hi] at hkeep
  apply hkeep h

theorem lt_of_assign (hnames : NamesDiffer drm) {j : ℕ}
    (h : (assignWaylandOutputs drm wl)[i]?.join = some j) :
  j < wl.length
  := by
  obtain ⟨m₀, m, hfilled, -, hm⟩ := filled_assign wl hnames
  rw [← hm] at h
  apply hfilled.sound.lt h

/-- What is advertised for a connector without augmentation. -/
theorem advertised_unaugmented (h : Unaugmented drm wl) (hi : drm[i]? = some d) :
  (augmentWithWaylandGeometry changed drm wl)[i]? = some (displayInfoFromDrm changed d)
  := by
  have hcond : drm = [] ∨ wl = [] ∨ ((wl.length == 1) = true ∧ 1 < drm.length) := by
    rw [beq_iff_eq]
    exact Or.inr h
  rw [augmentWithWaylandGeometry, augmentWithWaylandGeometryFrom]
  dsimp only
  rw [if_pos hcond, List.getElem?_map, hi, Option.map_some]

/-- What is advertised for a connector, where the compositor says something. -/
theorem advertised_augmented (h : ¬ Unaugmented drm wl) (hi : drm[i]? = some d) :
  (augmentWithWaylandGeometry changed drm wl)[i]? = some
    (match (assignWaylandOutputs drm wl)[i]?.join.bind (wl[·]?) with
      | some w =>
          augment changed (wl.length == 1)
            ((identityMatches drm wl)[i]?.join.isSome
              && (identityMatches drm wl)[i]?.join == (assignWaylandOutputs drm wl)[i]?.join)
            w d (displayInfoFromDrm changed d)
      | none => displayInfoFromDrm changed d)
  := by
  have hcond : ¬ (drm = [] ∨ wl = [] ∨ ((wl.length == 1) = true ∧ 1 < drm.length)) := by
    rw [beq_iff_eq]
    rintro (rfl | hun)
    · cases hi
    · exact h hun
  rw [augmentWithWaylandGeometry, augmentWithWaylandGeometryFrom]
  dsimp only
  rw [if_neg hcond, List.getElem?_mapIdx, List.getElem?_map, hi, Option.map_some, Option.map_some]
  congr 1
  cases (assignWaylandOutputs drm wl)[i]?.join.bind (wl[·]?) <;> rfl

/-- A logical size leaves the size alone. -/
theorem augmentScale_size (w : WaylandDisplayInfo) (info : DisplayInfo) :
  (augmentScale changed w d info).width = info.width
    ∧ (augmentScale changed w d info).height = info.height
  := by
  rw [augmentScale.eq_def]
  split
  next => split <;> exact ⟨rfl, rfl⟩
  next => exact ⟨rfl, rfl⟩

/-- Only a quarter turn of an identified output swaps the sides. -/
theorem augment_size (originOnly isIdentity : Bool) (w : WaylandDisplayInfo) (info : DisplayInfo) :
  ((augment changed originOnly isIdentity w d info).width,
      (augment changed originOnly isIdentity w d info).height)
    = if isIdentity = true ∧ (w.transform = 90 ∨ w.transform = 270) then (info.height, info.width)
      else (info.width, info.height)
  := by
  have hturn : ∀ info : DisplayInfo,
      ((augmentTurn changed isIdentity w d info).width,
          (augmentTurn changed isIdentity w d info).height)
        = if isIdentity = true ∧ (w.transform = 90 ∨ w.transform = 270)
          then (info.height, info.width) else (info.width, info.height) := by
    intro info
    simp only [augmentTurn, Bool.and_eq_true, Bool.or_eq_true, beq_iff_eq]
    split <;> rfl
  rw [augment]
  split
  next => apply hturn
  next =>
      rw [(augmentScale_size _ _).1, (augmentScale_size _ _).2]
      apply hturn

open Classical in
/-- The size that is advertised for a connector. -/
theorem advertised_size (hnames : NamesDiffer drm) (hi : drm[i]? = some d) {info : DisplayInfo}
    (hinfo : (augmentWithWaylandGeometry changed drm wl)[i]? = some info) :
  (info.width, info.height)
    = if Quartered drm wl d then (d.height.toInt32, d.width.toInt32)
      else (d.width.toInt32, d.height.toInt32)
  := by
  by_cases hun : Unaugmented drm wl
  · rw [advertised_unaugmented hun hi] at hinfo
    obtain rfl := Option.some.inj hinfo
    rw [if_neg fun h => h.1 hun]
    rfl
  · rw [advertised_augmented hun hi, identity_getElem? hnames hi] at hinfo
    obtain rfl := Option.some.inj hinfo
    cases hid : identityOf drm wl d with
    | none =>
        have hnot : ¬ Quartered drm wl d := by
          rintro ⟨-, j, w, hj, -⟩
          rw [hid] at hj
          cases hj
        rw [if_neg hnot]
        split
        next w hw =>
            rw [augment_size, if_neg (by simp)]
            rfl
        next => rfl
    | some j =>
        have hassign := assign_of_identity hnames hi hid
        obtain ⟨w, hw⟩ : ∃ w, wl[j]? = some w :=
          ⟨_, List.getElem?_eq_getElem (lt_of_assign hnames hassign)⟩
        have hiff : Quartered drm wl d ↔ w.transform = 90 ∨ w.transform = 270 := by
          constructor
          · rintro ⟨-, j', w', hj', hw', hturn⟩
            obtain rfl := Option.some.inj (hid.symm.trans hj')
            obtain rfl := Option.some.inj (hw.symm.trans hw')
            exact hturn
          · intro hturn
            exact ⟨hun, j, w, hid, hw, hturn⟩
        simp only [hassign, Option.bind_some, hw]
        rw [augment_size]
        simp only [Option.isSome_some, beq_self_eq_true, Bool.and_self, true_and, hiff]
        rfl

/-- The capturer turns a connector by a quarter when it is advertised so. -/
theorem transform_quarter (hnames : NamesDiffer drm) (hi : drm[i]? = some d) :
  ((transformAndOrigin changed drm i wl).1 = 90 ∨ (transformAndOrigin changed drm i wl).1 = 270)
    ↔ Quartered drm wl d
  := by
  have hzero : ¬ ((0 : Int32) = 90 ∨ (0 : Int32) = 270) := by
    decide
  rw [transformAndOrigin]
  split
  next hun =>
      constructor
      · intro h
        exact absurd h hzero
      · rintro ⟨hnot, -⟩
        exact absurd hun hnot
  next hun =>
      dsimp only
      rw [identity_getElem? hnames hi]
      constructor
      · intro h
        cases hid : identityOf drm wl d with
        | none =>
            rw [hid] at h
            exact absurd h hzero
        | some j =>
            cases hw : wl[j]? with
            | none =>
                rw [hid, Option.bind_some, hw] at h
                exact absurd h hzero
            | some w =>
                refine ⟨hun, j, w, hid, hw, ?_⟩
                rw [hid, Option.bind_some, hw] at h
                by_contra hturn
                simp only [Option.map_some, if_neg hturn] at h
                exact absurd h hzero
      · rintro ⟨-, j, w, hid, hw, hturn⟩
        rw [hid, Option.bind_some, hw]
        simpa only [Option.map_some, Option.getD_some, if_pos hturn] using hturn

/-- The origin and the size that `get_capturer_info` captures with. -/
def capturerGeometry (changed : String → Option (Int32 × Int32)) (drm : List DrmDisplayInfo)
    (wireIdx : ℕ) (wl : List WaylandDisplayInfo) : Option ((Int32 × Int32) × (ℕ × ℕ)) :=
  drm[wireIdx]?.map fun d =>
    let (transform, origin) := transformAndOrigin changed drm wireIdx wl
    (origin.getD (d.x, d.y), rotatedDims transform d.width.toNat d.height.toNat)

theorem ofNat_toNat_eq_toInt32 (n : UInt32) :
  Int32.ofNat n.toNat = n.toInt32
  := by
  rw [← UInt32.toInt32_ofNat', UInt32.ofNat_toNat]

theorem toInt_toInt32_of_lt {n : UInt32} (h : n.toNat < 2 ^ 31) :
  n.toInt32.toInt = n.toNat
  := by
  rw [← ofNat_toNat_eq_toInt32, Int32.toInt_ofNat_of_lt h]

/-- The size of a capturer is the size that is advertised: as 32-bit numbers, which are the numbers
themselves unless they are too large. -/
structure SizeAgrees (size : ℕ × ℕ) (info : DisplayInfo) : Prop where
  width : info.width = Int32.ofNat size.1
  height : info.height = Int32.ofNat size.2
  width_eq : size.1 < 2 ^ 31 → info.width.toInt = size.1
  height_eq : size.2 < 2 ^ 31 → info.height.toInt = size.2

/-- What an assignment of outputs to connectors promises.  Of several outputs of its name a connector
gets the first. -/
structure Assigned (drm : List DrmDisplayInfo) (wl : List WaylandDisplayInfo)
    (matched : List (Option ℕ)) : Prop where
  once : ∀ i i' j : ℕ, matched[i]?.join = some j → matched[i']?.join = some j → i = i'
  named : ∀ (i : ℕ) d, drm[i]? = some d →
    (∃ w ∈ wl, normalizeConnector w.name = normalizeConnector d.name) →
    ∃ j w, matched[i]?.join = some j ∧ wl[j]? = some w
      ∧ normalizeConnector w.name = normalizeConnector d.name
      ∧ ∀ j' < j, ∀ w', wl[j']? = some w' → normalizeConnector w'.name ≠ normalizeConnector d.name
  identified : ∀ (i : ℕ) d j, drm[i]? = some d →
    (∀ w ∈ wl, normalizeConnector w.name ≠ normalizeConnector d.name) →
    (identityMatches drm wl)[i]?.join = some j →
    (∃ w, wl[j]? = some w ∧ sameSize w d = true)
      ∧ (∀ (i' : ℕ) d', drm[i']? = some d' →
          (∀ w ∈ wl, normalizeConnector w.name ≠ normalizeConnector d'.name) →
          d'.width = d.width → d'.height = d.height → i' = i)
      ∧ nameFree drm wl j = true
      ∧ ∀ (j' : ℕ) w', wl[j']? = some w' → sameSize w' d = true → nameFree drm wl j' = true → j' = j
  full : ∀ i < drm.length, matched[i]?.join = none →
    ∀ j < wl.length, ∃ i' : ℕ, matched[i']?.join = some j

/-- No output before the one of a connector's name has that name. -/
theorem name_ne_of_nameMatch {j j' : ℕ} {w : WaylandDisplayInfo} (h : nameMatch wl d = some j)
    (hlt : j' < j) (hw : wl[j']? = some w) :
  normalizeConnector w.name ≠ normalizeConnector d.name
  := by
  obtain ⟨hj, -, hbefore⟩ := List.findIdx?_eq_some_iff_getElem.mp h
  obtain ⟨_, rfl⟩ := List.getElem?_eq_some_iff.mp hw
  simpa using hbefore j' hlt

theorem nameMatch_eq_none_iff :
  nameMatch wl d = none ↔ ∀ w ∈ wl, normalizeConnector w.name ≠ normalizeConnector d.name
  := by
  simp [nameMatch, List.findIdx?_eq_none_iff]

theorem assigned (hnames : NamesDiffer drm) :
  Assigned drm wl (assignWaylandOutputs drm wl)
  := by
  obtain ⟨m₀, m, hfilled, -, hm⟩ := filled_assign wl hnames
  constructor
  · rw [← hm]
    exact hfilled.sound.inj
  · rintro i d hi ⟨w, hw, hname⟩
    cases hmatch : nameMatch wl d with
    | none => exact absurd hname (nameMatch_eq_none_iff.mp hmatch w hw)
    | some j =>
        obtain ⟨w', hw', hname'⟩ := name_of_nameMatch hmatch
        refine ⟨j, w', assign_of_identity hnames hi ?_, hw', hname', ?_⟩
        · rw [identityOf, hmatch, Option.some_or]
        · intro j' hlt w'' hw''
          apply name_ne_of_nameMatch hmatch hlt hw''
  · intro i d j hi hname hid
    rw [identity_getElem? hnames hi, identityOf, nameMatch_eq_none_iff.mpr hname,
      Option.none_or] at hid
    obtain ⟨hfree, hsize, hunique⟩ := of_sizeMatch hid
    refine ⟨hsize, ?_, hfree, hunique⟩
    intro i' d' hi' hname' hwidth hheight
    by_contra hne
    rw [Matching.sizeMatch_eq_none hi hi' (Ne.symm hne) (nameMatch_eq_none_iff.mpr hname)
      (nameMatch_eq_none_iff.mpr hname') ⟨hwidth, hheight⟩] at hid
    cases hid
  · rw [← hm]
    intro i hi hnone j hj
    apply (hfilled.sound.taken_iff j).mp
    apply hfilled.full i hi hi hnone j hj

end

theorem NamesDiffer.perm {drm drm' : List DrmDisplayInfo} (h : NamesDiffer drm)
    (hperm : drm.Perm drm') :
  NamesDiffer drm'
  := by
  apply (hperm.map _).nodup_iff.mp h

/-- The captured size of a connector that is advertised as it is captured. -/
theorem sizeAgrees_of_eq {w h : UInt32} {info : DisplayInfo}
    (hinfo : (info.width, info.height) = (w.toInt32, h.toInt32)) :
  SizeAgrees (w.toNat, h.toNat) info
  := by
  obtain ⟨hw, hh⟩ := Prod.mk.inj hinfo
  refine ⟨?_, ?_, ?_, ?_⟩
  · rw [hw, ofNat_toNat_eq_toInt32]
  · rw [hh, ofNat_toNat_eq_toInt32]
  · intro hlt
    rw [hw, toInt_toInt32_of_lt hlt]
  · intro hlt
    rw [hh, toInt_toInt32_of_lt hlt]

/-- An augmented display has the origin of its output. -/
theorem augment_origin (changed : String → Option (Int32 × Int32)) (originOnly isIdentity : Bool)
    (w : WaylandDisplayInfo) (d : DrmDisplayInfo) (info : DisplayInfo) :
  ((augment changed originOnly isIdentity w d info).x,
      (augment changed originOnly isIdentity w d info).y) = (w.x, w.y)
  := by
  have hturn : ∀ info : DisplayInfo, ((augmentTurn changed isIdentity w d info).x,
      (augmentTurn changed isIdentity w d info).y) = (info.x, info.y) := by
    intro info
    rw [augmentTurn]
    split <;> rfl
  have hscale : ∀ info : DisplayInfo, ((augmentScale changed w d info).x,
      (augmentScale changed w d info).y) = (info.x, info.y) := by
    intro info
    rw [augmentScale.eq_def]
    split
    next => split <;> rfl
    next => rfl
  rw [augment]
  split
  next => apply hturn
  next =>
      rw [hscale]
      apply hturn

/-- The changed resolutions do not matter to the origins. -/
theorem origin_changed (drm : List DrmDisplayInfo) (wl : List WaylandDisplayInfo)
    (matched : List (Option ℕ)) (changed changed' : String → Option (Int32 × Int32)) (i : ℕ) :
  (augmentWithWaylandGeometryFrom changed drm wl matched)[i]?.map (fun di => (di.x, di.y))
    = (augmentWithWaylandGeometryFrom changed' drm wl matched)[i]?.map fun di => (di.x, di.y)
  := by
  rw [augmentWithWaylandGeometryFrom, augmentWithWaylandGeometryFrom]
  dsimp only
  split
  next =>
      rw [List.getElem?_map, List.getElem?_map]
      cases drm[i]? <;> rfl
  next =>
      rw [List.getElem?_mapIdx, List.getElem?_mapIdx, List.getElem?_map, List.getElem?_map]
      cases drm[i]? with
      | none => rfl
      | some d =>
          rw [Option.map_some, Option.map_some, Option.map_some, Option.map_some, Option.map_some,
            Option.map_some]
          split
          next w d' _ hd' =>
              rw [augment_origin, augment_origin]
          next => rfl

/-- The origin of a capturer is the origin that is advertised. -/
theorem origin_agrees {drm : List DrmDisplayInfo} {wl : List WaylandDisplayInfo}
    {changed changed' : String → Option (Int32 × Int32)} {i : ℕ} {d : DrmDisplayInfo}
    {info : DisplayInfo} (hi : drm[i]? = some d)
    (hinfo : (augmentWithWaylandGeometry changed' drm wl)[i]? = some info) :
  (transformAndOrigin changed drm i wl).2.getD (d.x, d.y) = (info.x, info.y)
  := by
  rw [transformAndOrigin]
  split
  next hun =>
      rw [advertised_unaugmented hun hi] at hinfo
      obtain rfl := Option.some.inj hinfo
      rfl
  next =>
      have horigin := origin_changed drm wl (assignWaylandOutputs drm wl) changed changed' i
      rw [← augmentWithWaylandGeometry.eq_def changed', hinfo, Option.map_some] at horigin
      dsimp only
      rw [horigin, Option.getD_some]

/-- Over one snapshot of the compositor, the size that is captured from a connector in one list is
the size that is advertised for it in any other order of the list; over one list the origins agree,
too; and every assignment of outputs is as `Assigned` says. -/
theorem geometry_agrees {drm drm' : List DrmDisplayInfo} (wl : List WaylandDisplayInfo)
    (changed changed' : String → Option (Int32 × Int32)) (hperm : drm.Perm drm')
    (hnames : NamesDiffer drm) :
  (∀ (i i' : ℕ) d geometry info, drm[i]? = some d → drm'[i']? = some d →
      capturerGeometry changed drm i wl = some geometry →
      (augmentWithWaylandGeometry changed' drm' wl)[i']? = some info →
      SizeAgrees geometry.2 info)
    ∧ (∀ (i : ℕ) geometry info, capturerGeometry changed drm i wl = some geometry →
        (augmentWithWaylandGeometry changed' drm wl)[i]? = some info →
        geometry.1 = (info.x, info.y))
    ∧ Assigned drm wl (assignWaylandOutputs drm wl)
  := by
  refine ⟨?_, ?_, assigned hnames⟩
  · intro i i' d geometry info hi hi' hgeometry hinfo
    rw [capturerGeometry, hi, Option.map_some] at hgeometry
    obtain rfl := Option.some.inj hgeometry
    have hsize := advertised_size (hnames.perm hperm) hi' hinfo
    rw [← quartered_perm hperm d] at hsize
    dsimp only
    rw [rotatedDims]
    split at hsize
    next hquarter =>
        rw [if_pos ((transform_quarter hnames hi).mpr hquarter)]
        apply sizeAgrees_of_eq hsize
    next hquarter =>
        rw [if_neg fun h => hquarter ((transform_quarter hnames hi).mp h)]
        apply sizeAgrees_of_eq hsize
  · intro i geometry info hgeometry hinfo
    obtain ⟨d, hi, rfl⟩ := Option.map_eq_some_iff.mp hgeometry
    apply origin_agrees hi hinfo

/-- A display of a connector. -/
def sampleConnector (name : String) (width height : UInt32) : DrmDisplayInfo where
  name := name
  x := 0
  y := 0
  width := width
  height := height
  active := true

/-- An output that is turned by a quarter. -/
def sampleOutput : WaylandDisplayInfo where
  name := "eDP-1"
  x := 2560
  y := 0
  width := 1920
  height := 1080
  logicalSize := some (1080, 1920)
  transform := 90

/-- An output beside it that is not turned. -/
def sampleMonitor : WaylandDisplayInfo where
  name := "HDMI-1"
  x := 0
  y := 0
  width := 2560
  height := 1440
  logicalSize := none
  transform := 0

/-- The internal display of a computer and its monitor. -/
def sampleConnectors : List DrmDisplayInfo :=
  [sampleConnector "eDP-1" 1920 1080, sampleConnector "HDMI-A-1" 2560 1440]

/-- The capture side knows the connectors in one order and the advertise side in the other; the
display that is turned is captured and advertised as it stands. -/
theorem geometry_agrees_sample :
  ∃ geometry info, capturerGeometry (fun _ => none) sampleConnectors 0 [sampleMonitor, sampleOutput]
        = some geometry
    ∧ (augmentWithWaylandGeometry (fun _ => none) sampleConnectors.reverse
        [sampleMonitor, sampleOutput])[1]? = some info
    ∧ geometry = ((2560, 0), (1080, 1920)) ∧ SizeAgrees geometry.2 info
    ∧ (∀ info, (augmentWithWaylandGeometry (fun _ => none) sampleConnectors
        [sampleMonitor, sampleOutput])[0]? = some info → geometry.1 = (info.x, info.y))
    ∧ Assigned sampleConnectors [sampleMonitor, sampleOutput]
        (assignWaylandOutputs sampleConnectors [sampleMonitor, sampleOutput])
  := by
  have hnames : NamesDiffer sampleConnectors := by
    rw [NamesDiffer]
    decide +kernel
  obtain ⟨hsize, horigin, hassigned⟩ := geometry_agrees [sampleMonitor, sampleOutput]
    (fun _ => none) (fun _ => none) (List.reverse_perm sampleConnectors).symm hnames
  have hgeometry : capturerGeometry (fun _ => none) sampleConnectors 0
      [sampleMonitor, sampleOutput] = some ((2560, 0), (1080, 1920)) := by
    decide +kernel
  have hlength : 1 < (augmentWithWaylandGeometry (fun _ => none) sampleConnectors.reverse
      [sampleMonitor, sampleOutput]).length := by
    decide +kernel
  have hinfo := List.getElem?_eq_getElem hlength
  refine ⟨_, _, hgeometry, hinfo, rfl, ?_, ?_, hassigned⟩
  · apply hsize 0 1 _ _ _ rfl rfl hgeometry hinfo
  · intro info hadvertised
    apply horigin 0 _ info hgeometry hadvertised

/-- A size that is no 32-bit signed number is advertised as a negative one; and two connectors
without outputs of their names both get an identity match when their sizes differ. -/
theorem not_geometry_agrees :
  (NamesDiffer [sampleConnector "eDP-1" (2 ^ 31) 1080] ∧ ∃ geometry info,
    capturerGeometry (fun _ => none) [sampleConnector "eDP-1" (2 ^ 31) 1080] 0 [] = some geometry
      ∧ (augmentWithWaylandGeometry (fun _ => none)
          [sampleConnector "eDP-1" (2 ^ 31) 1080] [])[0]? = some info
      ∧ geometry.2.1 = 2 ^ 31 ∧ info.width.toInt = - 2 ^ 31)
    ∧ NamesDiffer [sampleConnector "DP-1" 1920 1080, sampleConnector "DP-2" 2560 1440]
    ∧ identityMatches [sampleConnector "DP-1" 1920 1080, sampleConnector "DP-2" 2560 1440]
        [sampleMonitor, sampleOutput] = [some 1, some 0]
  := by
  refine ⟨⟨List.nodup_singleton _, _, _, rfl, rfl, ?_, ?_⟩, ?_, ?_⟩
  · decide
  · decide
  · rw [NamesDiffer]
    decide +kernel
  · decide +kernel

end VynxDesk.Drm

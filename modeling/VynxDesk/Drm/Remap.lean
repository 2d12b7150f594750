import Mathlib.Data.List.Pairwise
import VynxDesk.Drm.Layout
import VynxDesk.Lib.Extremum
import VynxDesk.Lib.Rescale

/-!
# Remapped coordinates

A client computes the coordinates it sends in the layout of its session, the baseline.
`remap_to_live_layout` of `scrap/wayland/display.rs` takes them to the live layout: a point of a
display goes to the same display, the edges to the edges (`Remap.remap_lands`).  The range of the
device, `desktop_rect_of`, is the bounding box of the rectangles of `logical_rects_of`.
-/

namespace VynxDesk.Drm

theorem toInt_add_of_lt {a b : Int32} (hb : 0 ≤ b.toInt) (h : a.toInt + b.toInt < 2 ^ 31) :
  (a + b).toInt = a.toInt + b.toInt
  := by
  have ha := a.le_toInt
  rw [Int32.toInt_add]
  exact Int.bmod_eq_of_le (by omega) (by omega)

theorem toInt_sub_one {a : Int32} (h : 1 < a.toInt) : (a - 1).toInt = a.toInt - 1
  := by
  have ha := a.toInt_lt
  rw [Int32.toInt_sub]
  exact Int.bmod_eq_of_le (by simp; omega) (by simp; omega)

namespace DisplayRect

/-- Whether a point is on a display. -/
def contains (r : DisplayRect) (x y : Int32) : Bool :=
  x ≥ r.x && x < r.x + r.w && y ≥ r.y && y < r.y + r.h

/-- A size is positive, and the far edges are numbers of 32 bits. -/
structure Valid (r : DisplayRect) : Prop where
  w_pos : 0 < r.w.toInt
  h_pos : 0 < r.h.toInt
  right_lt : r.x.toInt + r.w.toInt < 2 ^ 31
  bottom_lt : r.y.toInt + r.h.toInt < 2 ^ 31

/-- Whether a point is on a display, as numbers. -/
structure On (r : DisplayRect) (x y : Int32) : Prop where
  left : r.x.toInt ≤ x.toInt
  right : x.toInt < r.x.toInt + r.w.toInt
  top : r.y.toInt ≤ y.toInt
  bottom : y.toInt < r.y.toInt + r.h.toInt

theorem contains_iff {r : DisplayRect} (h : r.Valid) (x y : Int32) :
  r.contains x y = true ↔ r.On x y
  := by
  have hright : (r.x + r.w).toInt = r.x.toInt + r.w.toInt :=
    toInt_add_of_lt (Int.le_of_lt h.w_pos) h.right_lt
  have hbottom : (r.y + r.h).toInt = r.y.toInt + r.h.toInt :=
    toInt_add_of_lt (Int.le_of_lt h.h_pos) h.bottom_lt
  simp only [contains, Bool.and_eq_true, decide_eq_true_eq, ge_iff_le, Int32.le_iff_toInt_le,
    Int32.lt_iff_toInt_lt, hright, hbottom]
  constructor
  · rintro ⟨⟨⟨hleft, hright⟩, htop⟩, hbottom⟩
    exact ⟨hleft, hright, htop, hbottom⟩
  · rintro ⟨hleft, hright, htop, hbottom⟩
    exact ⟨⟨⟨hleft, hright⟩, htop⟩, hbottom⟩

end DisplayRect

namespace Remap

/-! ## The code -/

/-- `map_axis`. -/
def mapAxis (v baseOrigin baseExtent liveOrigin liveExtent : Int32) : Int32 :=
  if baseExtent ≤ 1 ∨ liveExtent ≤ 1 then liveOrigin
  else
    liveOrigin + ((v - baseOrigin).toInt64 * (liveExtent - 1).toInt64
      / (baseExtent - 1).toInt64).toInt32

/-- The display of the live layout that a baseline display with index `bi` is taken for. -/
def matched (baseline live : List DisplayRect) (bi : ℕ) (b : DisplayRect) : Option DisplayRect :=
  if b.name.isEmpty then
    if baseline.length = live.length then live[bi]? else none
  else live.find? fun r => r.name == b.name

/-- `remap_to_live_layout`. -/
def remapToLiveLayout (x y : Int32) (baseline live : List DisplayRect) : Int32 × Int32 :=
  match baseline.zipIdx.find? fun (r, _) => r.contains x y with
  | none => (x, y)
  | some (b, bi) =>
      match matched baseline live bi b with
      | none => (x, y)
      | some l => (mapAxis x b.x b.w l.x l.w, mapAxis y b.y b.h l.y l.h)

/-- The size that `desktop_rect_of` takes for one display of several. -/
def desktopSize (d : WaylandDisplayInfo) : Int32 × Int32 :=
  match d.logicalSize with
  | some logicalSize => logicalSize
  | none =>
      if d.transform = 90 ∨ d.transform = 270 then orientedPhysical d else (d.width, d.height)

/-- The variables of the loop of `desktop_rect_of`. -/
structure Bounds where
  minX : Int32
  maxX : Int32
  minY : Int32
  maxY : Int32
  deriving DecidableEq, Repr

namespace Bounds

/-- The variables before the loop. -/
def start : Bounds where
  minX := Int32.maxValue
  maxX := Int32.minValue
  minY := Int32.maxValue
  maxY := Int32.minValue

/-- The body of the loop, for a rectangle. -/
def add (self : Bounds) (x y w h : Int32) : Bounds where
  minX := min self.minX x
  maxX := max self.maxX (x + w)
  minY := min self.minY y
  maxY := max self.maxY (y + h)

end Bounds

/-- `desktop_rect_of`. -/
def desktopRectOf (displays : List WaylandDisplayInfo) : Option Bounds :=
  match displays with
  | [] => none
  | [d] =>
      let (w, h) := orientedPhysical d
      some ⟨d.x, d.x + w, d.y, d.y + h⟩
  | _ =>
      some (displays.foldl (fun bounds d =>
        let size := desktopSize d
        bounds.add d.x d.y size.1 size.2) .start)

/-! ## One axis -/

section Axis

variable {v baseOrigin baseExtent liveOrigin liveExtent : Int32}

/-- An axis of a display and a coordinate on it, and the same axis of a live display. -/
structure Axis (v baseOrigin baseExtent liveOrigin liveExtent : Int32) : Prop where
  base_pos : 0 < baseExtent.toInt
  live_pos : 0 < liveExtent.toInt
  low : baseOrigin.toInt ≤ v.toInt
  high : v.toInt < baseOrigin.toInt + baseExtent.toInt
  fits : liveOrigin.toInt + liveExtent.toInt < 2 ^ 31

theorem mapAxis_of_le (h : baseExtent.toInt ≤ 1 ∨ liveExtent.toInt ≤ 1) :
  mapAxis v baseOrigin baseExtent liveOrigin liveExtent = liveOrigin
  := by
  rw [mapAxis, if_pos]
  rwa [Int32.le_iff_toInt_le, Int32.le_iff_toInt_le]

/-- No operation of `map_axis` wraps: it rescales the axis. -/
theorem toInt_mapAxis (h : Axis v baseOrigin baseExtent liveOrigin liveExtent)
    (hbase : 1 < baseExtent.toInt) (hlive : 1 < liveExtent.toInt) :
  (mapAxis v baseOrigin baseExtent liveOrigin liveExtent).toInt
    = liveOrigin.toInt
      + rescale baseExtent.toInt liveExtent.toInt (v.toInt - baseOrigin.toInt)
  := by
  obtain ⟨-, -, hlow, hhigh, hfits⟩ := h
  have hnot : ¬ (baseExtent ≤ 1 ∨ liveExtent ≤ 1) := by
    rw [Int32.le_iff_toInt_le, Int32.le_iff_toInt_le]
    change ¬ (baseExtent.toInt ≤ 1 ∨ liveExtent.toInt ≤ 1)
    omega
  have hbaseLt := baseExtent.toInt_lt
  have hliveLt := liveExtent.toInt_lt
  have hliveLe := liveOrigin.le_toInt
  have hoffset : (v - baseOrigin).toInt = v.toInt - baseOrigin.toInt := by
    rw [Int32.toInt_sub]
    exact Int.bmod_eq_of_le (by omega) (by omega)
  have hbaseLast := toInt_sub_one hbase
  have hliveLast := toInt_sub_one hlive
  set offset := v.toInt - baseOrigin.toInt with hset
  have hnonneg : 0 ≤ rescale baseExtent.toInt liveExtent.toInt offset :=
    rescale_nonneg hbase (by omega) (by omega)
  have hlt : rescale baseExtent.toInt liveExtent.toInt offset < liveExtent.toInt :=
    rescale_lt hbase (by omega) (by omega)
  have hproduct : ((v - baseOrigin).toInt64 * (liveExtent - 1).toInt64).toInt
      = offset * (liveExtent.toInt - 1) := by
    have hle : 0 ≤ offset * (liveExtent.toInt - 1) := Int.mul_nonneg (by omega) (by omega)
    have hbound : offset * (liveExtent.toInt - 1) ≤ 2 ^ 31 * 2 ^ 31 :=
      Int.mul_le_mul (by omega) (by omega) (by omega) (by omega)
    rw [Int64.toInt_mul, Int32.toInt_toInt64, Int32.toInt_toInt64, hoffset, hliveLast]
    exact Int.bmod_eq_of_le (by omega) (by omega)
  have hne : (baseExtent - 1).toInt64 ≠ -1 := by
    intro heq
    have hneg := congrArg Int64.toInt heq
    rw [Int32.toInt_toInt64, hbaseLast] at hneg
    change baseExtent.toInt - 1 = -1 at hneg
    omega
  have hquotient : ((v - baseOrigin).toInt64 * (liveExtent - 1).toInt64
      / (baseExtent - 1).toInt64).toInt32.toInt
      = rescale baseExtent.toInt liveExtent.toInt offset := by
    rw [Int64.toInt_toInt32, Int64.toInt_div_of_ne_right _ _ hne, hproduct, Int32.toInt_toInt64,
      hbaseLast, Int.tdiv_eq_ediv_of_nonneg (Int.mul_nonneg (by omega) (by omega))]
    exact Int.bmod_eq_of_le (by rw [← rescale]; omega) (by rw [← rescale]; omega)
  rw [mapAxis, if_neg hnot, Int32.toInt_add, hquotient]
  exact Int.bmod_eq_of_le (by omega) (by omega)

/-- How `map_axis` takes a coordinate of a display to the live display. -/
structure AxisImage (v baseOrigin baseExtent liveOrigin liveExtent v' : Int32) : Prop where
  low : liveOrigin.toInt ≤ v'.toInt
  high : v'.toInt < liveOrigin.toInt + liveExtent.toInt
  first : 1 < baseExtent.toInt → 1 < liveExtent.toInt → v = baseOrigin → v' = liveOrigin
  last : 1 < baseExtent.toInt → 1 < liveExtent.toInt →
    v.toInt = baseOrigin.toInt + baseExtent.toInt - 1 →
    v'.toInt = liveOrigin.toInt + liveExtent.toInt - 1
  shift : liveExtent = baseExtent → v'.toInt = v.toInt + (liveOrigin.toInt - baseOrigin.toInt)

theorem Axis.image (h : Axis v baseOrigin baseExtent liveOrigin liveExtent) :
  AxisImage v baseOrigin baseExtent liveOrigin liveExtent
    (mapAxis v baseOrigin baseExtent liveOrigin liveExtent)
  := by
  have hbasePos := h.base_pos
  have hlivePos := h.live_pos
  have hlow := h.low
  have hhigh := h.high
  by_cases hsmall : baseExtent.toInt ≤ 1 ∨ liveExtent.toInt ≤ 1
  · rw [mapAxis_of_le hsmall]
    refine ⟨Int.le_refl _, by omega, fun _ _ _ => rfl, by omega, ?_⟩
    rintro rfl
    omega
  · rw [not_or, Int.not_le, Int.not_le] at hsmall
    have hvalue := toInt_mapAxis h hsmall.1 hsmall.2
    constructor
    · have hnonneg := rescale_nonneg hsmall.1 hlivePos (Int.sub_nonneg_of_le hlow)
      omega
    · have hlt := rescale_lt hsmall.1 hlivePos (Int.sub_left_lt_of_lt_add hhigh)
      omega
    · rintro _ _ rfl
      rw [← Int32.toInt_inj, hvalue, Int.sub_self, rescale_zero, Int.add_zero]
    · intro _ _ hlast
      have hoffset : v.toInt - baseOrigin.toInt = baseExtent.toInt - 1 := by omega
      rw [hvalue, hoffset, rescale_last hsmall.1]
      omega
    · rintro rfl
      rw [hvalue, rescale_self hsmall.1]
      omega

/-- `map_axis` keeps the order. -/
theorem Axis.mono {v' : Int32} (h : Axis v baseOrigin baseExtent liveOrigin liveExtent)
    (h' : Axis v' baseOrigin baseExtent liveOrigin liveExtent) (hle : v ≤ v') :
  mapAxis v baseOrigin baseExtent liveOrigin liveExtent
    ≤ mapAxis v' baseOrigin baseExtent liveOrigin liveExtent
  := by
  rw [Int32.le_iff_toInt_le] at hle ⊢
  by_cases hsmall : baseExtent.toInt ≤ 1 ∨ liveExtent.toInt ≤ 1
  · have hsame : mapAxis v baseOrigin baseExtent liveOrigin liveExtent
        = mapAxis v' baseOrigin baseExtent liveOrigin liveExtent :=
      (mapAxis_of_le hsmall).trans (mapAxis_of_le hsmall).symm
    exact Int.le_of_eq (congrArg Int32.toInt hsame)
  · rw [not_or, Int.not_le, Int.not_le] at hsmall
    rw [toInt_mapAxis h hsmall.1 hsmall.2, toInt_mapAxis h' hsmall.1 hsmall.2]
    apply Int.add_le_add_left
    exact rescale_mono hsmall.1 h.live_pos (by omega)

end Axis

/-! ## The display of a point -/

variable {baseline live : List DisplayRect} {x y : Int32} {bi : ℕ} {b l : DisplayRect}

/-- The first display of the baseline, in the order of the list, that a point is on. -/
structure FirstAt (baseline : List DisplayRect) (x y : Int32) (bi : ℕ) (b : DisplayRect) :
    Prop where
  get : baseline[bi]? = some b
  on : b.On x y
  first : ∀ j < bi, ∀ r, baseline[j]? = some r → ¬ r.On x y

/-- Whether a live display is the one of the baseline: it has its name or, without names, its
index, as long as there are as many. -/
def IsLive (baseline live : List DisplayRect) (bi : ℕ) (b l : DisplayRect) : Prop :=
  b.name ≠ "" ∧ l ∈ live ∧ l.name = b.name
    ∨ b.name = "" ∧ baseline.length = live.length ∧ live[bi]? = some l

/-- No two displays have one name. -/
def Distinct (rects : List DisplayRect) : Prop :=
  rects.Pairwise fun r r' => r.name ≠ "" → r.name ≠ r'.name

theorem Distinct.eq_of_name (h : Distinct live) {r r' : DisplayRect} (hr : r ∈ live)
    (hr' : r' ∈ live) (hne : r.name ≠ "") (hname : r.name = r'.name) :
  r = r'
  := by
  have : Std.Symm fun r r' : DisplayRect => r.name ≠ "" → r.name ≠ r'.name := by
    constructor
    intro r r' hdiffer hne heq
    exact hdiffer (heq ▸ hne) heq.symm
  by_contra hother
  exact List.Pairwise.forall h hr hr' hother hne hname

theorem matched_eq_some_iff (hdistinct : Distinct live) :
  matched baseline live bi b = some l ↔ IsLive baseline live bi b l
  := by
  rw [matched, IsLive]
  by_cases hname : b.name = ""
  · simp [hname]
  · have hisEmpty : ¬ b.name.isEmpty = true := by rwa [String.isEmpty_iff]
    rw [if_neg hisEmpty]
    constructor
    · intro hfind
      have heq := List.find?_some hfind
      exact Or.inl ⟨hname, List.mem_of_find?_eq_some hfind, beq_iff_eq.mp heq⟩
    · rintro (⟨-, hl, heq⟩ | ⟨hempty, -⟩)
      · cases hfind : live.find? fun r => r.name == b.name with
        | none =>
            have hnot := List.find?_eq_none.mp hfind l hl
            rw [heq, beq_self_eq_true] at hnot
            cases hnot rfl
        | some r =>
            have hr := List.mem_of_find?_eq_some hfind
            have hrname := List.find?_some hfind
            rw [beq_iff_eq] at hrname
            rw [hdistinct.eq_of_name hr hl (hrname ▸ hname) (hrname.trans heq.symm)]
      · cases hname hempty

theorem find_eq_some_iff (hvalid : ∀ r ∈ baseline, r.Valid) :
  (baseline.zipIdx.find? fun (r, _) => r.contains x y) = some (b, bi) ↔ FirstAt baseline x y bi b
  := by
  have hcontains : ∀ {j : ℕ} {r : DisplayRect}, baseline[j]? = some r →
      (r.contains x y = true ↔ r.On x y) := by
    intro j r hr
    exact DisplayRect.contains_iff (hvalid r (List.mem_of_getElem? hr)) x y
  rw [List.find?_eq_some_iff_getElem]
  simp only [List.length_zipIdx, List.getElem_zipIdx, Nat.zero_add, Prod.mk.injEq]
  constructor
  · rintro ⟨hon, i, hi, ⟨rfl, rfl⟩, hfirst⟩
    have hget : baseline[i]? = some baseline[i] := List.getElem?_eq_getElem hi
    refine ⟨hget, (hcontains hget).mp hon, ?_⟩
    intro j hj r hr hr'
    have hnot := hfirst j hj
    obtain ⟨hj', rfl⟩ := List.getElem?_eq_some_iff.mp hr
    rw [(hcontains hr).mpr hr'] at hnot
    cases hnot
  · rintro ⟨hget, hon, hfirst⟩
    obtain ⟨hbi, rfl⟩ := List.getElem?_eq_some_iff.mp hget
    refine ⟨(hcontains hget).mpr hon, bi, hbi, ⟨rfl, rfl⟩, ?_⟩
    intro j hj
    have hj' : j < baseline.length := by omega
    have hgetj := List.getElem?_eq_getElem hj'
    rw [Bool.not_eq_true', ← Bool.not_eq_true, hcontains hgetj]
    exact hfirst j hj _ hgetj

theorem remap_of_firstAt (hvalid : ∀ r ∈ baseline, r.Valid) (hdistinct : Distinct live)
    (hfirst : FirstAt baseline x y bi b) (hlive : IsLive baseline live bi b l) :
  remapToLiveLayout x y baseline live = (mapAxis x b.x b.w l.x l.w, mapAxis y b.y b.h l.y l.h)
  := by
  rw [remapToLiveLayout, (find_eq_some_iff hvalid).mpr hfirst]
  dsimp only
  rw [(matched_eq_some_iff hdistinct).mpr hlive]

theorem remap_of_not_firstAt (hvalid : ∀ r ∈ baseline, r.Valid) (hdistinct : Distinct live)
    (hnone : ∀ bi b l, FirstAt baseline x y bi b → ¬ IsLive baseline live bi b l) :
  remapToLiveLayout x y baseline live = (x, y)
  := by
  rw [remapToLiveLayout]
  cases hfind : baseline.zipIdx.find? fun (r, _) => r.contains x y with
  | none => rfl
  | some found =>
      obtain ⟨b, bi⟩ := found
      have hfirst := (find_eq_some_iff hvalid).mp hfind
      dsimp only
      cases hmatched : matched baseline live bi b with
      | none => rfl
      | some l => cases hnone bi b l hfirst ((matched_eq_some_iff hdistinct).mp hmatched)

theorem IsLive.mem (h : IsLive baseline live bi b l) : l ∈ live
  := by
  rcases h with ⟨-, hl, -⟩ | ⟨-, -, hl⟩
  · exact hl
  · exact List.mem_of_getElem? hl

theorem FirstAt.mem (h : FirstAt baseline x y bi b) : b ∈ baseline
  := List.mem_of_getElem? h.get

theorem FirstAt.axisX (h : FirstAt baseline x y bi b) (hb : b.Valid) (hl : l.Valid) :
  Axis x b.x b.w l.x l.w
  := ⟨hb.w_pos, hl.w_pos, h.on.left, h.on.right, hl.right_lt⟩

theorem FirstAt.axisY (h : FirstAt baseline x y bi b) (hb : b.Valid) (hl : l.Valid) :
  Axis y b.y b.h l.y l.h
  := ⟨hb.h_pos, hl.h_pos, h.on.top, h.on.bottom, hl.bottom_lt⟩

/-- A display of an unchanged layout is live. -/
theorem FirstAt.isLive_self (h : FirstAt baseline x y bi b) : IsLive baseline baseline bi b b
  := by
  by_cases hname : b.name = ""
  · exact Or.inr ⟨hname, rfl, h.get⟩
  · exact Or.inl ⟨hname, h.mem, rfl⟩

/-! ## The range of the device -/

theorem desktopSize_eq (d : WaylandDisplayInfo) :
  desktopSize d = d.logicalSize.getD (orientedPhysical d)
  := by
  rw [desktopSize]
  cases d.logicalSize with
  | some size => rfl
  | none =>
      dsimp only [Option.getD_none]
      split
      next => rfl
      next h => rw [orientedPhysical, if_neg h]

/-- The bounding box of rectangles. -/
structure BoundingBox (rects : List DisplayRect) (box : Bounds) : Prop where
  left : Extremum (· ≤ ·) (rects.map fun r => r.x) box.minX
  right : Extremum (· ≥ ·) (rects.map fun r => r.x + r.w) box.maxX
  top : Extremum (· ≤ ·) (rects.map fun r => r.y) box.minY
  bottom : Extremum (· ≥ ·) (rects.map fun r => r.y + r.h) box.maxY

theorem chooses_min : Chooses (fun a b : Int32 => a ≤ b) min
  := by
  refine ⟨Int32.le_refl, Int32.le_trans, Int32.le_antisymm, ?_⟩
  intro a b
  change (if a ≤ b then a else b) = a ∧ _ ∨ (if a ≤ b then a else b) = b ∧ _
  split
  next h => exact Or.inl ⟨rfl, h⟩
  next h => exact Or.inr ⟨rfl, Int32.le_of_lt (Int32.not_le.mp h)⟩

theorem chooses_max : Chooses (fun a b : Int32 => a ≥ b) max
  := by
  refine ⟨Int32.le_refl, fun h h' => Int32.le_trans h' h, fun h h' => Int32.le_antisymm h' h, ?_⟩
  intro a b
  change (if a ≤ b then b else a) = a ∧ _ ∨ (if a ≤ b then b else a) = b ∧ _
  split
  next h => exact Or.inr ⟨rfl, h⟩
  next h => exact Or.inl ⟨rfl, Int32.le_of_lt (Int32.not_le.mp h)⟩

/-- The loop of `desktop_rect_of` looks for the edges one by one. -/
theorem foldl_add (rects : List DisplayRect) (bounds : Bounds) :
  rects.foldl (fun bounds r => bounds.add r.x r.y r.w r.h) bounds
    = ⟨(rects.map fun r => r.x).foldl min bounds.minX,
        (rects.map fun r => r.x + r.w).foldl max bounds.maxX,
        (rects.map fun r => r.y).foldl min bounds.minY,
        (rects.map fun r => r.y + r.h).foldl max bounds.maxY⟩
  := by
  induction rects generalizing bounds with
  | nil => rfl
  | cons r rects ih =>
      rw [List.foldl_cons, ih]
      rfl

theorem boundingBox_foldl {rects : List DisplayRect} (hne : rects ≠ []) :
  BoundingBox rects (rects.foldl (fun bounds r => bounds.add r.x r.y r.w r.h) .start)
  := by
  rw [foldl_add]
  have hmap : ∀ f : DisplayRect → Int32, rects.map f ≠ [] := fun f => by simpa using hne
  exact ⟨chooses_min.foldl_last Int32.le_maxValue (hmap _),
    chooses_max.foldl_last Int32.minValue_le (hmap _),
    chooses_min.foldl_last Int32.le_maxValue (hmap _),
    chooses_max.foldl_last Int32.minValue_le (hmap _)⟩

/-- Rectangles have one bounding box. -/
theorem BoundingBox.unique {rects : List DisplayRect} {box box' : Bounds}
    (h : BoundingBox rects box) (h' : BoundingBox rects box') :
  box = box'
  := by
  obtain ⟨minX, maxX, minY, maxY⟩ := box
  obtain ⟨minX', maxX', minY', maxY'⟩ := box'
  obtain rfl : minX = minX' := chooses_min.extremum_eq h.left h'.left
  obtain rfl : maxX = maxX' := chooses_max.extremum_eq h.right h'.right
  obtain rfl : minY = minY' := chooses_min.extremum_eq h.top h'.top
  obtain rfl : maxY = maxY' := chooses_max.extremum_eq h.bottom h'.bottom
  rfl

@[simp]
theorem desktopRectOf_eq_none {displays : List WaylandDisplayInfo} :
  desktopRectOf displays = none ↔ displays = []
  := by
  rw [desktopRectOf.eq_def]
  split
  all_goals simp_all

/-- The range of the device is the bounding box of the rectangles. -/
theorem boundingBox_of_desktopRectOf {displays : List WaylandDisplayInfo} {box : Bounds}
    (h : desktopRectOf displays = some box) :
  BoundingBox (logicalRectsOf displays) box
  := by
  rw [desktopRectOf.eq_def] at h
  split at h
  next => cases h
  next d =>
      cases h
      have hrects : logicalRectsOf [d]
          = [⟨d.name, d.x, d.y, (orientedPhysical d).1, (orientedPhysical d).2, d.transform⟩] := rfl
      rw [hrects]
      exact ⟨chooses_min.foldl _ [], chooses_max.foldl _ [], chooses_min.foldl _ [],
        chooses_max.foldl _ []⟩
  next hnil hsingle =>
      cases h
      have hlength : displays.length ≠ 1 := by
        intro hone
        obtain ⟨d, rfl⟩ := List.length_eq_one_iff.mp hone
        exact hsingle d rfl
      have hrects : displays.foldl (fun (bounds : Bounds) d =>
            bounds.add d.x d.y (desktopSize d).1 (desktopSize d).2) .start
          = (logicalRectsOf displays).foldl
            (fun bounds r => bounds.add r.x r.y r.w r.h) .start := by
        rw [logicalRectsOf, List.foldl_map]
        simp only [if_neg hlength, desktopSize_eq]
      rw [hrects]
      apply boundingBox_foldl
      rw [Ne, logicalRectsOf_eq_nil]
      exact hnil

/-- What lies in the live rectangle of a display lies in the range. -/
theorem BoundingBox.covers {rects : List DisplayRect} {box : Bounds} (h : BoundingBox rects box)
    (hl : l ∈ rects) (hvalid : l.Valid) (hon : l.On x y) :
  box.minX ≤ x ∧ x < box.maxX ∧ box.minY ≤ y ∧ y < box.maxY
  := by
  have hleft := h.left.first l.x (List.mem_map_of_mem hl)
  have hright := h.right.first (l.x + l.w) (List.mem_map_of_mem (f := fun r => r.x + r.w) hl)
  have htop := h.top.first l.y (List.mem_map_of_mem hl)
  have hbottom := h.bottom.first (l.y + l.h) (List.mem_map_of_mem (f := fun r => r.y + r.h) hl)
  rw [ge_iff_le, Int32.le_iff_toInt_le,
    toInt_add_of_lt (Int.le_of_lt hvalid.w_pos) hvalid.right_lt] at hright
  rw [ge_iff_le, Int32.le_iff_toInt_le,
    toInt_add_of_lt (Int.le_of_lt hvalid.h_pos) hvalid.bottom_lt] at hbottom
  rw [Int32.le_iff_toInt_le] at hleft htop
  obtain ⟨hxl, hxr, hyt, hyb⟩ := hon
  simp only [Int32.le_iff_toInt_le, Int32.lt_iff_toInt_lt]
  omega

/-- How the remap takes a point of a baseline display to the live one. -/
structure Image (b l : DisplayRect) (x y : Int32) (p : Int32 × Int32) : Prop where
  x : AxisImage x b.x b.w l.x l.w p.1
  y : AxisImage y b.y b.h l.y l.h p.2

theorem Image.on {p : Int32 × Int32} (h : Image b l x y p) : l.On p.1 p.2
  := ⟨h.x.low, h.x.high, h.y.low, h.y.high⟩

/-! ## The remap -/

/-- A point whose first baseline display is live goes to that display and stays in the range, edges
to edges and in order.  Every other point stays, and every point while the layout is the
baseline. -/
theorem remap_lands (hbaseline : ∀ r ∈ baseline, r.Valid) (hlive : ∀ r ∈ live, r.Valid)
    (hdistinct : Distinct live) :
  (∀ x y bi b l, FirstAt baseline x y bi b → IsLive baseline live bi b l →
    Image b l x y (remapToLiveLayout x y baseline live)
    ∧ (∀ x' y', FirstAt baseline x' y' bi b →
      (x ≤ x' → (remapToLiveLayout x y baseline live).1
        ≤ (remapToLiveLayout x' y' baseline live).1)
      ∧ (y ≤ y' → (remapToLiveLayout x y baseline live).2
        ≤ (remapToLiveLayout x' y' baseline live).2))
    ∧ ∀ displays box, logicalRectsOf displays = live → desktopRectOf displays = some box →
      box.minX ≤ (remapToLiveLayout x y baseline live).1
      ∧ (remapToLiveLayout x y baseline live).1 < box.maxX
      ∧ box.minY ≤ (remapToLiveLayout x y baseline live).2
      ∧ (remapToLiveLayout x y baseline live).2 < box.maxY)
  ∧ (∀ x y, (∀ bi b l, FirstAt baseline x y bi b → ¬ IsLive baseline live bi b l) →
    remapToLiveLayout x y baseline live = (x, y))
  ∧ (live = baseline → ∀ x y, remapToLiveLayout x y baseline live = (x, y))
  ∧ ∀ displays, (desktopRectOf displays = none ↔ displays = [])
    ∧ ∀ box, desktopRectOf displays = some box → BoundingBox (logicalRectsOf displays) box
  := by
  have himage : ∀ {x y bi b l}, FirstAt baseline x y bi b → IsLive baseline live bi b l →
      Image b l x y (remapToLiveLayout x y baseline live) := by
    intro x y bi b l hfirst hl
    rw [remap_of_firstAt hbaseline hdistinct hfirst hl]
    have hb := hbaseline b hfirst.mem
    have hlv := hlive l hl.mem
    exact ⟨(hfirst.axisX hb hlv).image, (hfirst.axisY hb hlv).image⟩
  have hstays : ∀ x y, (∀ bi b l, FirstAt baseline x y bi b → ¬ IsLive baseline live bi b l) →
      remapToLiveLayout x y baseline live = (x, y) := by
    intro x y
    exact remap_of_not_firstAt hbaseline hdistinct
  refine ⟨?_, hstays, ?_, fun displays => ⟨desktopRectOf_eq_none, fun box =>
    boundingBox_of_desktopRectOf⟩⟩
  · intro x y bi b l hfirst hl
    have hb := hbaseline b hfirst.mem
    have hlv := hlive l hl.mem
    refine ⟨himage hfirst hl, ?_, ?_⟩
    · intro x' y' hfirst'
      rw [remap_of_firstAt hbaseline hdistinct hfirst hl,
        remap_of_firstAt hbaseline hdistinct hfirst' hl]
      exact ⟨(hfirst.axisX hb hlv).mono (hfirst'.axisX hb hlv),
        (hfirst.axisY hb hlv).mono (hfirst'.axisY hb hlv)⟩
    · rintro displays box rfl hbox
      exact (boundingBox_of_desktopRectOf hbox).covers hl.mem hlv (himage hfirst hl).on
  · rintro rfl x y
    by_cases hfirst : ∃ bi b, FirstAt live x y bi b
    · obtain ⟨bi, b, hfirst⟩ := hfirst
      have h := himage hfirst hfirst.isLive_self
      apply Prod.ext
      · rw [← Int32.toInt_inj, h.x.shift rfl, Int.sub_self, Int.add_zero]
      · rw [← Int32.toInt_inj, h.y.shift rfl, Int.sub_self, Int.add_zero]
    · apply hstays
      intro bi b l hb
      cases hfirst ⟨bi, b, hb⟩

/-- A layout of two outputs, the second one at `x`. -/
def outputs (x : Int32) : List DisplayRect :=
  [⟨"HDMI-1", 0, 0, 1920, 1080, 0⟩, ⟨"eDP-1", x, 0, 1920, 1080, 0⟩]

theorem valid_outputs {x : Int32} (h : x.toInt + 1920 < 2 ^ 31) : ∀ r ∈ outputs x, r.Valid
  := by
  intro r hr
  rcases List.mem_cons.mp hr with rfl | hr
  · constructor
    all_goals decide
  · rw [List.mem_singleton.mp hr]
    have hw : 0 < (1920 : Int32).toInt := by decide
    have hh : 0 < (1080 : Int32).toInt := by decide
    have hbottom : (0 : Int32).toInt + (1080 : Int32).toInt < 2 ^ 31 := by decide
    exact ⟨hw, hh, h, hbottom⟩

theorem distinct_outputs (x : Int32) : Distinct (outputs x)
  := by
  simp [Distinct, outputs]

/-- The second output moves from the right of the first one further to the right. -/
theorem remap_lands_moved :
  remapToLiveLayout 1930 10 (outputs 1920) (outputs 2000) = (2010, 10)
  := by
  have hfirst : FirstAt (outputs 1920) 1930 10 1 ⟨"eDP-1", 1920, 0, 1920, 1080, 0⟩ :=
    (find_eq_some_iff (valid_outputs (by decide))).mp (by decide)
  have himage := ((remap_lands (valid_outputs (by decide)) (valid_outputs (by decide))
    (distinct_outputs 2000)).1 _ _ _ _ ⟨"eDP-1", 2000, 0, 1920, 1080, 0⟩ hfirst
    (Or.inl ⟨by decide, by decide, rfl⟩)).1
  apply Prod.ext
  · rw [← Int32.toInt_inj, himage.x.shift rfl]
    decide
  · rw [← Int32.toInt_inj, himage.y.shift rfl]
    decide

/-- A point of two mirrored outputs follows the first one when the second one moves away. -/
theorem not_remap_lands :
  ∃ (baseline live : List DisplayRect) (x y : Int32) (bi : ℕ) (b l : DisplayRect),
    (∀ r ∈ baseline, r.Valid) ∧ (∀ r ∈ live, r.Valid) ∧ Distinct baseline ∧ Distinct live
    ∧ baseline[bi]? = some b ∧ b.On x y ∧ IsLive baseline live bi b l
    ∧ ¬ l.On (remapToLiveLayout x y baseline live).1 (remapToLiveLayout x y baseline live).2
  := by
  refine ⟨outputs 0, outputs 1920, 10, 10, 1, ⟨"eDP-1", 0, 0, 1920, 1080, 0⟩,
    ⟨"eDP-1", 1920, 0, 1920, 1080, 0⟩, valid_outputs (by decide), valid_outputs (by decide),
    distinct_outputs 0, distinct_outputs 1920, rfl, ?_, Or.inl ⟨by decide, by decide, rfl⟩, ?_⟩
  · constructor
    all_goals decide
  · intro hon
    have hleft := hon.left
    revert hleft
    decide

end Remap

end VynxDesk.Drm

/-
Module: Handheld.Proofs.Picture.RgbImage
Purpose: A picture as bytes, three a pixel, in a buffer of any length. Three things bound the pixels
  that are written: the whole pixels of the buffer, the pixels of the picture, and the number that is
  worked out beforehand. They agree, so every whole pixel that both have is written and no other byte
  is; and bytes with room for the picture give it back.
Main exports: getElem?_paintRgb, Frame.getElem?_pixels, Frame.getElem?_renderRgb, Frame.ofRgb,
  Frame.ofRgb_renderRgb, Frame.renderRgb_injective, Frame.renderRgb_wholePixels
-/
import Handheld.Picture.Frame

namespace Handheld.Picture

/-! ### Brightness -/

theorem toNat_gray (shade : Shade) : (gray shade).toNat = 255 - 85 * shade.val := by
  revert shade
  decide

/-- The shade of a brightness, and the lighter one of a brightness between two. -/
def shadeOf (brightness : UInt8) : Shade :=
  ⟨(255 - brightness.toNat) / 85, by omega⟩

theorem shadeOf_gray (shade : Shade) : shadeOf (gray shade) = shade := by
  revert shade
  decide

/-! ### Single bytes -/

/-- A byte of a whole pixel for which there is a shade gets the brightness of that shade, and every
    other byte stays. -/
theorem getElem?_paintRgb (shades : List Shade) (buffer : List UInt8) (k : Nat) :
    (paintRgb shades buffer)[k]? =
      if k / 3 < min (buffer.length / 3) shades.length then shades[k / 3]?.map gray
      else buffer[k]? := by
  fun_induction paintRgb shades buffer generalizing k with
  | case1 shade shades r g b rest ih =>
      have hwhole : (r :: g :: b :: rest).length / 3 = rest.length / 3 + 1 :=
        Nat.add_div_right rest.length (by decide : 0 < 3)
      rw [hwhole, List.length_cons]
      -- one pixel less of the rest is three bytes less
      rcases k with _ | _ | _ | k
      · simp
      · simp
      · simp
      · have hnext : (k + 1 + 1 + 1) / 3 = k / 3 + 1 :=
          Nat.add_div_right k (by decide : 0 < 3)
        simp only [hnext, ih, List.getElem?_cons_succ, Nat.lt_min, Nat.add_lt_add_iff_right]
  | case2 shades buffer hstop =>
      rw [if_neg]
      intro hpixel
      have hshades : 0 < shades.length := by omega
      have hroom : 3 ≤ buffer.length := by omega
      rcases shades with _ | ⟨shade, shades⟩
      · exact Nat.lt_irrefl 0 hshades
      · rcases buffer with _ | ⟨r, _ | ⟨g, _ | ⟨b, rest⟩⟩⟩
        case cons.cons.cons => exact hstop shade shades r g b rest rfl rfl
        all_goals simp at hroom

/-- The pixels line by line are the pixels by their numbers. -/
theorem Frame.getElem?_pixels (f : Frame) (i : Nat) : f.pixels[i]? = f.pixelAt? i := by
  have hflatten : f.pixels = f.rows.flatten.toList := by
    rcases f with ⟨⟨⟨lines⟩, hlines⟩⟩
    simp only [Frame.pixels, Vector.flatten_mk, List.map_toArray, Array.flatten_toArray,
      Vector.toList_mk, List.map_map]
    rfl
  rw [hflatten, Vector.getElem?_toList, Vector.getElem?_flatten]
  unfold Frame.pixelAt?
  by_cases hi : i < screenHeight * screenWidth
  · have hline : i / screenWidth < screenHeight := by
      rwa [Nat.div_lt_iff_lt_mul (by decide)]
    have hcolumn : i % screenWidth < screenWidth := Nat.mod_lt i (by decide)
    rw [dif_pos hi, Vector.getElem?_eq_getElem hline, Option.bind_eq_bind, Option.bind_some,
      Vector.getElem?_eq_getElem hcolumn]
  · have hline : screenHeight ≤ i / screenWidth := by
      rw [Nat.le_div_iff_mul_le (by decide)]
      exact Nat.le_of_not_lt hi
    rw [dif_neg hi, Vector.getElem?_eq_none hline]
    rfl

/-- A byte of the picture gets the brightness of its pixel if the whole of that pixel fits into the
    buffer, and every other byte stays. -/
theorem Frame.getElem?_renderRgb (f : Frame) (buffer : List UInt8) (k : Nat) :
    (f.renderRgb buffer)[k]? =
      if k / 3 < min (buffer.length / 3) Frame.size then (f.pixelAt? (k / 3)).map gray
      else buffer[k]? := by
  -- the number worked out beforehand is neither below nor above where the other two bounds end
  have hbounds : min (buffer.length / 3) (f.pixels.take (min (buffer.length / 3) Frame.size)).length =
      min (buffer.length / 3) Frame.size := by
    rw [List.length_take, f.length_pixels]
    omega
  unfold Frame.renderRgb
  dsimp only [bytesPerPixel]
  rw [getElem?_paintRgb, hbounds]
  by_cases hpixel : k / 3 < min (buffer.length / 3) Frame.size
  · rw [if_pos hpixel, if_pos hpixel, List.getElem?_take_of_lt hpixel, f.getElem?_pixels]
  · rw [if_neg hpixel, if_neg hpixel]

theorem Frame.length_renderRgb (f : Frame) (buffer : List UInt8) :
    (f.renderRgb buffer).length = buffer.length :=
  length_paintRgb _ _

/-! ### Reading the picture back -/

/-- The picture that bytes show, three a pixel, told from the first byte of each. -/
def Frame.ofRgb (bytes : List UInt8) : Frame :=
  ⟨Vector.ofFn fun y => Vector.ofFn fun x => shadeOf (bytes.getD (3 * Frame.index x y) 0)⟩

theorem Frame.index_lt_size {x y : Nat} (hx : x < screenWidth) (hy : y < screenHeight) :
    Frame.index x y < Frame.size := by
  unfold Frame.index Frame.size
  unfold screenWidth screenHeight at *
  omega

/-- Bytes with room for the whole picture give it back. -/
theorem Frame.ofRgb_renderRgb (f : Frame) {buffer : List UInt8} (hroom : rgbSize ≤ buffer.length) :
    Frame.ofRgb (f.renderRgb buffer) = f := by
  have hwhole : min (buffer.length / 3) Frame.size = Frame.size := by
    unfold rgbSize bytesPerPixel at hroom
    omega
  have hpixel (x y : Nat) (hx : x < screenWidth) (hy : y < screenHeight) :
      (f.renderRgb buffer).getD (3 * Frame.index x y) 0 = gray f.rows[y][x] := by
    have hnumber : 3 * Frame.index x y / 3 = Frame.index x y :=
      Nat.mul_div_cancel_left _ (by decide)
    have hseen : f.pixelAt? (Frame.index x y) = some f.rows[y][x] := pixel?_eq f hx hy
    rw [List.getD_eq_getElem?_getD, f.getElem?_renderRgb, hnumber, hwhole,
      if_pos (Frame.index_lt_size hx hy), hseen, Option.map_some, Option.getD_some]
  apply Frame.ext_rows
  intro y hy
  ext x hx
  simp only [Frame.ofRgb, Vector.getElem_ofFn]
  rw [hpixel x y hx hy, shadeOf_gray]

/-- Two frames that look the same in a buffer of sufficient size are the same. -/
theorem Frame.renderRgb_injective {f g : Frame} {buffer : List UInt8} (hroom : rgbSize ≤ buffer.length)
    (h : f.renderRgb buffer = g.renderRgb buffer) : f = g := by
  rw [← f.ofRgb_renderRgb hroom, h, g.ofRgb_renderRgb hroom]

/-! ### Buffers of any length -/

/-- Rendering into a buffer of any length, whatever it holds. Every pixel of the picture that the
    buffer has room for as a whole gets the brightness of its shade in its three bytes. All other
    bytes stay, those of a pixel that is cut off at the end as well as those behind the picture. If
    there is room for all pixels, the picture can be told from the bytes. -/
theorem Frame.renderRgb_wholePixels (f : Frame) (buffer : List UInt8) :
    (f.renderRgb buffer).length = buffer.length ∧
      (∀ i < min (buffer.length / 3) Frame.size, ∃ shade, f.pixelAt? i = some shade ∧
        ∀ j < 3, ((f.renderRgb buffer)[3 * i + j]?).map UInt8.toNat = some (255 - 85 * shade.val)) ∧
      (∀ k, (∀ i < min (buffer.length / 3) Frame.size, ∀ j < 3, k ≠ 3 * i + j) →
        (f.renderRgb buffer)[k]? = buffer[k]?) ∧
      (rgbSize ≤ buffer.length → Frame.ofRgb (f.renderRgb buffer) = f) := by
  refine ⟨f.length_renderRgb buffer, ?painted, ?kept, f.ofRgb_renderRgb⟩
  case painted =>
    intro i hi
    have hlast : i < f.pixels.length := by
      rw [f.length_pixels]
      exact Nat.lt_of_lt_of_le hi (Nat.min_le_right _ _)
    have hshade : f.pixelAt? i = some f.pixels[i] := by
      rw [← f.getElem?_pixels, List.getElem?_eq_getElem hlast]
    refine ⟨f.pixels[i], hshade, fun j hj => ?_⟩
    have hpixel : (3 * i + j) / 3 = i := by omega
    rw [f.getElem?_renderRgb, hpixel, if_pos hi, hshade, Option.map_some, Option.map_some, toNat_gray]
  case kept =>
    intro k hother
    have hbeyond : ¬ k / 3 < min (buffer.length / 3) Frame.size := fun hpixel =>
      hother (k / 3) hpixel (k % 3) (Nat.mod_lt k (by decide)) (Nat.div_add_mod k 3).symm
    rw [f.getElem?_renderRgb, if_neg hbeyond]

/-- Upright stripes, of which the first two are dark. -/
def stripes : Frame :=
  ⟨Vector.replicate screenHeight (Vector.ofFn fun x => Fin.ofNat 4 (x.val + 2))⟩

/-- Stripes in a buffer that ends within its third pixel, and in one that is two bytes too long. -/
theorem Frame.renderRgb_wholePixels_stripes :
    let short : List UInt8 := [1, 2, 3, 4, 5, 6, 7, 8]
    let long : List UInt8 := List.replicate (rgbSize + 2) 9
    (1 < min (short.length / 3) Frame.size ∧ stripes.pixelAt? 1 = some 3 ∧
        ((stripes.renderRgb short)[5]?).map UInt8.toNat = some 0) ∧
      ((∀ i < min (short.length / 3) Frame.size, ∀ j < 3, 6 ≠ 3 * i + j) ∧
        (stripes.renderRgb short)[6]? = some 7) ∧
      (23039 < min (long.length / 3) Frame.size ∧ stripes.pixelAt? 23039 = some 1 ∧
        ((stripes.renderRgb long)[rgbSize - 1]?).map UInt8.toNat = some 170) ∧
      ((∀ i < min (long.length / 3) Frame.size, ∀ j < 3, rgbSize ≠ 3 * i + j) ∧
        (stripes.renderRgb long)[rgbSize]? = some 9) ∧
      rgbSize ≤ long.length ∧ Frame.ofRgb (stripes.renderRgb long) = stripes := by
  intro short long
  have hlong : long.length = rgbSize + 2 := List.length_replicate
  have hsize : rgbSize = 3 * Frame.size := rfl
  obtain ⟨-, hpainted, hkept, -⟩ := Frame.renderRgb_wholePixels stripes short
  obtain ⟨-, hpainted', hkept', hback⟩ := Frame.renderRgb_wholePixels stripes long
  refine ⟨?pixel, ?rest, ?lastPixel, ?behind, ?back⟩
  case pixel =>
    have hfits : 1 < min (short.length / 3) Frame.size := by decide
    have hshade : stripes.pixelAt? 1 = some 3 := by decide +kernel
    obtain ⟨shade, hseen, hbytes⟩ := hpainted 1 hfits
    obtain rfl : 3 = shade := Option.some.inj (hshade.symm.trans hseen)
    exact ⟨hfits, hshade, hbytes 2 (by decide)⟩
  case rest =>
    have hother : ∀ i < min (short.length / 3) Frame.size, ∀ j < 3, 6 ≠ 3 * i + j := by decide
    exact ⟨hother, hkept 6 hother⟩
  case lastPixel =>
    have hfits : 23039 < min (long.length / 3) Frame.size := by
      rw [hlong]
      decide
    have hshade : stripes.pixelAt? 23039 = some 1 := by decide +kernel
    obtain ⟨shade, hseen, hbytes⟩ := hpainted' 23039 hfits
    obtain rfl : 1 = shade := Option.some.inj (hshade.symm.trans hseen)
    exact ⟨hfits, hshade, hbytes 2 (by decide)⟩
  case behind =>
    have hother : ∀ i < min (long.length / 3) Frame.size, ∀ j < 3, rgbSize ≠ 3 * i + j := by
      intro i hi j hj
      omega
    have hstill : long[rgbSize]? = some 9 := by
      rw [List.getElem?_replicate, if_pos (by omega)]
    exact ⟨hother, (hkept' rgbSize hother).trans hstill⟩
  case back =>
    have hroom : rgbSize ≤ long.length := by
      rw [hlong]
      exact Nat.le_add_right _ _
    exact ⟨hroom, hback hroom⟩

end Handheld.Picture

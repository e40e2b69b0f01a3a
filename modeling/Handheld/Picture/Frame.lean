/-
Module: Handheld.Picture.Frame
Purpose: The picture as it stands on the screen, and its conversion to RGB.
Main exports: Shade, Frame, Frame.pixel?, Frame.pixels, Frame.setRow, Frame.renderRgb
-/

namespace Handheld.Picture

/-- The pixels of a line. -/
def screenWidth : Nat := 160

/-- The lines of the screen. -/
def screenHeight : Nat := 144

/-- One of the four shades, from 0 for the lightest to 3 for the darkest. -/
abbrev Shade := Fin 4

/-- Shades are written as numbers. -/
instance neZeroShades : @NeZero Nat Zero.ofOfNat0 4 :=
  ⟨Nat.succ_ne_zero 3⟩

/-- A line of pixels. -/
abbrev Row := Vector Shade screenWidth

/-- A picture, line by line from the top. -/
structure Frame where
  rows : Vector Row screenHeight
deriving DecidableEq, Repr

namespace Frame

theorem ext_rows {f g : Frame} (h : ∀ (y : Nat) (hy : y < screenHeight), f.rows[y] = g.rows[y]) :
    f = g := by
  obtain ⟨rows⟩ := f
  obtain ⟨rows'⟩ := g
  exact congrArg mk (Vector.ext h)

/-- The picture of the lightest shade alone. -/
def blank : Frame :=
  ⟨Vector.replicate screenHeight (Vector.replicate screenWidth 0)⟩

/-- The number of pixels. -/
def size : Nat := screenWidth * screenHeight

/-- All pixels, line by line. -/
def pixels (f : Frame) : List Shade :=
  f.rows.toList.flatMap Vector.toList

theorem length_pixels (f : Frame) : f.pixels.length = size := by
  have hrow : ∀ row ∈ f.rows.toList, row.toList.length = screenWidth :=
    fun row _ => row.length_toList
  unfold pixels
  rw [List.length_flatMap, List.map_congr_left hrow, List.map_const', List.sum_replicate_nat,
    Vector.length_toList]
  rfl

/-- The pixel with number `i`, counted line by line. -/
def pixelAt? (f : Frame) (i : Nat) : Option Shade := do
  let row ← f.rows[i / screenWidth]?
  row[i % screenWidth]?

/-- The number of the pixel in column `x` of line `y`. -/
def index (x y : Nat) : Nat :=
  y * screenWidth + x

/-- The pixel in column `x` of line `y`. Only its number has to be one of the picture's, so that a
    column to the right of the screen means a pixel of a line further down. -/
def pixel? (f : Frame) (x y : Nat) : Option Shade :=
  f.pixelAt? (index x y)

/-- Replace a line; a line below the screen is ignored. -/
def setRow (f : Frame) (y : Nat) (row : Row) : Frame :=
  ⟨f.rows.setIfInBounds y row⟩

/-- The number of pixels that are not of the lightest shade. -/
def darkPixels (f : Frame) : Nat :=
  f.pixels.countP (· ≠ 0)

/-- The picture in a few words. -/
def describe (f : Frame) : String :=
  "FrameBuffer \x7b width: " ++ toString screenWidth ++ ", height: " ++ toString screenHeight
    ++ ", non_zero_pixels: " ++ toString f.darkPixels ++ " \x7d"

/-- The complaint about a pixel number behind the last pixel. -/
def outOfBounds (i : Nat) : String :=
  "index out of bounds: the len is " ++ toString size ++ " but the index is " ++ toString i

end Frame

theorem pixel?_eq (frame : Frame) {x y : Nat} (hx : x < screenWidth) (hy : y < screenHeight) :
    frame.pixel? x y = some frame.rows[y][x] := by
  have hwide : 0 < screenWidth := by decide
  have hline : (y * screenWidth + x) / screenWidth = y := by
    rw [Nat.add_comm, Nat.add_mul_div_right _ _ hwide, Nat.div_eq_of_lt hx, Nat.zero_add]
  have hcolumn : (y * screenWidth + x) % screenWidth = x := by
    rw [Nat.add_comm, Nat.add_mul_mod_self_right, Nat.mod_eq_of_lt hx]
  unfold Frame.pixel? Frame.pixelAt? Frame.index
  rw [hline, hcolumn, Vector.getElem?_eq_getElem hy, Option.bind_eq_bind, Option.bind_some,
    Vector.getElem?_eq_getElem hx]

/-- The bytes of a pixel: red, green and blue. -/
def bytesPerPixel : Nat := 3

/-- The brightness of a shade, the same for red, green and blue. -/
def gray : Shade → UInt8
  | 0 => 0xFF
  | 1 => 0xAA
  | 2 => 0x55
  | 3 => 0x00

/-- Overwrite the front of a buffer by three bytes a pixel, for as many whole pixels as fit. -/
def paintRgb : List Shade → List UInt8 → List UInt8
  | shade :: shades, _ :: _ :: _ :: rest =>
    gray shade :: gray shade :: gray shade :: paintRgb shades rest
  | _, buffer => buffer

/-- Write a picture into a buffer, three bytes a pixel. A short buffer takes the whole pixels that
    fit, and what lies behind the picture stays. -/
def Frame.renderRgb (f : Frame) (buffer : List UInt8) : List UInt8 :=
  let pixels := min (buffer.length / bytesPerPixel) Frame.size
  paintRgb (f.pixels.take pixels) buffer

/-- The number of bytes that a picture takes. -/
def rgbSize : Nat := bytesPerPixel * Frame.size

/-- A buffer keeps its length. -/
theorem length_paintRgb (shades : List Shade) (buffer : List UInt8) :
    (paintRgb shades buffer).length = buffer.length := by
  fun_induction paintRgb shades buffer with
  | case1 shade shades r g b rest ih => simp [ih]
  | case2 => rfl

end Handheld.Picture

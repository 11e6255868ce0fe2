import Mathlib

/-! # Clipboard images

Decoded pixels are widened to RGBA in the buffer that holds them, the last pixel first.  The loop
invariant is that the bytes below the pixels already widened are still the original ones, and a
pixel is always read from there.  The length an interlaced image inflates to is summed over the
seven Adam7 passes; the passes telescope, two of them at a time, to a grid twice as fine.
-/

namespace Monhop.Desktop

open List

/-! ## Widening in place -/

/-- The RGBA of the pixel at `index`, read from the packed bytes; `none` is an index out of bounds. -/
def rgbaAt (channels index : Nat) (pixels : List UInt8) : Option (List UInt8) :=
  let source := index * channels
  match channels with
  | 1 => pixels[source]?.map fun grey => [grey, grey, grey, 255]
  | 2 => do
    let grey ← pixels[source]?
    let alpha ← pixels[source + 1]?
    return [grey, grey, grey, alpha]
  | _ => do
    let red ← pixels[source]?
    let green ← pixels[source + 1]?
    let blue ← pixels[source + 2]?
    return [red, green, blue, 255]

/-- The buffer after `done` turns of `for index in (0..pixels.len() / 4).rev()`. -/
def expandFrom (channels : Nat) (pixels : List UInt8) : Nat → Option (List UInt8)
  | 0 => some pixels
  | done + 1 => do
    let buffer ← expandFrom channels pixels done
    let index := pixels.length / 4 - 1 - done
    let rgba ← rgbaAt channels index buffer
    return buffer.take (index * 4) ++ rgba ++ buffer.drop (index * 4 + 4)

def expandToRgba (channels : Nat) (pixels : List UInt8) : Option (List UInt8) :=
  if channels = 4 then some pixels else expandFrom channels pixels (pixels.length / 4)

def packedPixel (channels index : Nat) (pixels : List UInt8) : List UInt8 :=
  (pixels.drop (index * channels)).take channels

/-- What one packed pixel means as RGBA. -/
def widenPixel : List UInt8 → List UInt8
  | [grey] => [grey, grey, grey, 255]
  | [grey, alpha] => [grey, grey, grey, alpha]
  | [red, green, blue] => [red, green, blue, 255]
  | pixel => pixel

def widened (channels : Nat) (pixels : List UInt8) (index : Nat) : List UInt8 :=
  widenPixel (packedPixel channels index pixels)

section
variable {channels index : Nat} {pixels buffer : List UInt8}

/-- The bytes of a pixel lie below its own RGBA slot's end. -/
theorem packedPixel_congr (packed : channels ≤ 3)
    (same : buffer.take (4 * (index + 1)) = pixels.take (4 * (index + 1))) :
    packedPixel channels index buffer = packedPixel channels index pixels := by
  have inside : index * channels + channels ≤ 4 * (index + 1) := by
    have := Nat.mul_le_mul_left index packed
    omega
  have front := congrArg (fun bytes => (bytes.take (index * channels + channels)).drop
    (index * channels)) same
  simpa [packedPixel, take_take, Nat.min_eq_left inside, drop_take] using front

theorem rgbaAt_eq (present : 1 ≤ channels) (packed : channels ≤ 3)
    (fits : 4 * (index + 1) ≤ pixels.length) :
    rgbaAt channels index pixels = some (widened channels pixels index) := by
  have read (offset : Nat) : pixels[index * channels + offset]? =
      (pixels.drop (index * channels))[offset]? := by simp
  have long : channels ≤ (pixels.drop (index * channels)).length := by
    have := Nat.mul_le_mul_left index packed
    simp only [length_drop]
    omega
  have first := read 0
  rw [Nat.add_zero] at first
  simp only [rgbaAt, widened, packedPixel, first, read]
  generalize pixels.drop (index * channels) = front at long
  obtain rfl | rfl | rfl : channels = 1 ∨ channels = 2 ∨ channels = 3 := by omega
  · match front, long with
    | grey :: _, _ => simp [widenPixel]
  · match front, long with
    | grey :: alpha :: _, _ => simp [widenPixel]
  · match front, long with
    | red :: green :: blue :: _, _ => simp [widenPixel]

/-- Below the pixels already widened the buffer still holds the original bytes. -/
theorem expandFrom_eq (present : 1 ≤ channels) (packed : channels ≤ 3) {done : Nat}
    (within : done ≤ pixels.length / 4) :
    expandFrom channels pixels done = some (pixels.take (4 * (pixels.length / 4 - done)) ++
      (List.range' (pixels.length / 4 - done) done).flatMap (widened channels pixels) ++
      pixels.drop (4 * (pixels.length / 4))) := by
  induction done with
  | zero => simp [expandFrom]
  | succ done before =>
    -- the turn widens `index`, the highest pixel still packed
    obtain ⟨index, above⟩ : ∃ index, pixels.length / 4 - done = index + 1 :=
      ⟨pixels.length / 4 - done - 1, by omega⟩
    have here : pixels.length / 4 - 1 - done = index := by omega
    have below : pixels.length / 4 - (done + 1) = index := by omega
    have fits : 4 * (index + 1) ≤ pixels.length := by omega
    rw [above] at before
    simp only [expandFrom, before (by omega), here, below, range'_succ, flatMap_cons, append_assoc]
    generalize (List.range' (index + 1) done).flatMap _ ++ pixels.drop _ = rest
    have front : (pixels.take (4 * (index + 1))).length = 4 * (index + 1) := by simp [fits]
    have same : (pixels.take (4 * (index + 1)) ++ rest).take (4 * (index + 1)) =
        pixels.take (4 * (index + 1)) := take_left' front
    have kept := congrArg (List.take (4 * index)) same
    rw [take_take, take_take, Nat.min_eq_left (by omega)] at kept
    have read : rgbaAt channels index (pixels.take (4 * (index + 1)) ++ rest) =
        some (widened channels pixels index) := by
      rw [rgbaAt_eq present packed (by rw [length_append, front]; omega), widened,
        packedPixel_congr packed same, widened]
    have tail : (pixels.take (4 * (index + 1)) ++ rest).drop (4 * index + 4) = rest :=
      drop_left' front
    rw [Option.bind_eq_bind, Option.bind_some, read]
    simp [Nat.mul_comm index 4, kept, tail]

theorem expand_to_rgba_widens (present : 1 ≤ channels) (packed : channels ≤ 3) :
    expandToRgba channels pixels =
      some ((List.range (pixels.length / 4)).flatMap (widened channels pixels) ++
        pixels.drop (4 * (pixels.length / 4))) ∧
    ∀ done < pixels.length / 4, ∃ buffer, expandFrom channels pixels done = some buffer ∧
      packedPixel channels (pixels.length / 4 - 1 - done) buffer =
        packedPixel channels (pixels.length / 4 - 1 - done) pixels := by
  constructor
  · rw [expandToRgba, if_neg (by omega), expandFrom_eq present packed (Nat.le_refl _)]
    simp [range_eq_range']
  · intro done unread
    have untouched : 4 * (pixels.length / 4 - 1 - done + 1) = 4 * (pixels.length / 4 - done) := by
      omega
    refine ⟨_, expandFrom_eq present packed (Nat.le_of_lt unread), packedPixel_congr packed ?_⟩
    rw [untouched, append_assoc]
    exact take_left' (by simp; omega)

end

/-- Two grey pixels in a buffer with room for their RGBA. -/
theorem expand_to_rgba_widens_grey :
    expandToRgba 1 [7, 9, 0, 0, 0, 0, 0, 0, 5] = some [7, 7, 7, 255, 9, 9, 9, 255, 5] :=
  (expand_to_rgba_widens (by decide) (by decide)).1.trans (by decide)

/-! ## The length an interlaced image inflates to -/

structure Pass where
  x : Nat
  y : Nat
  xStep : Nat
  yStep : Nat
  deriving DecidableEq

def adam7Passes : List Pass :=
  [⟨0, 0, 8, 8⟩, ⟨4, 0, 8, 8⟩, ⟨0, 4, 4, 8⟩, ⟨2, 0, 4, 4⟩, ⟨0, 2, 2, 4⟩, ⟨1, 0, 2, 2⟩, ⟨0, 1, 1, 2⟩]

def divCeil (value step : Nat) : Nat := (value + step - 1) / step

def Pass.columns (pass : Pass) (width : Nat) : Nat := divCeil (width - pass.x) pass.xStep

def Pass.lines (pass : Pass) (height : Nat) : Nat := divCeil (height - pass.y) pass.yStep

def scanline (bits : Nat) : Nat → Nat
  | 0 => 0
  | pixels => 1 + divCeil (pixels * bits) 8

def samples (colorType : UInt8) : Nat :=
  match colorType with
  | 2 => 3
  | 4 => 2
  | 6 => 4
  | _ => 1

/-- `none` is a header too short to index; the sum is a `u64`. -/
def inflatedLen (png : List UInt8) (width height : Nat) : Option Nat := do
  let colorType ← png[25]?
  let bitDepth ← png[24]?
  let interlace ← png[28]?
  let bits := bitDepth.toNat * samples colorType
  if interlace = 0 then return height * scanline bits width % 2 ^ 64
  return (adam7Passes.map fun pass =>
    pass.lines height * scanline bits (pass.columns width)).sum % 2 ^ 64

/-- The rows of a pass that hold pixels, each with its filter byte. -/
def Pass.rows (pass : Pass) (width height : Nat) : Nat :=
  if pass.columns width = 0 then 0 else pass.lines height

def Pass.Holds (pass : Pass) (width height x y : Nat) : Prop :=
  (∃ column < pass.columns width, x = pass.x + column * pass.xStep) ∧
  ∃ line < pass.lines height, y = pass.y + line * pass.yStep

theorem divCeil_places {offset step size place : Nat} (small : offset < step) :
    (∃ index < divCeil (size - offset) step, place = offset + index * step) ↔
      place < size ∧ place % step = offset := by
  have positive : 0 < step := Nat.zero_lt_of_lt small
  constructor
  · rintro ⟨index, early, rfl⟩
    rw [divCeil, Nat.lt_iff_add_one_le, Nat.le_div_iff_mul_le positive, Nat.add_one_mul] at early
    exact ⟨by omega, by simp [Nat.mod_eq_of_lt small]⟩
  · rintro ⟨inside, rfl⟩
    have split := Nat.mod_add_div place step
    rw [Nat.mul_comm] at split
    refine ⟨place / step, ?_, split.symm⟩
    rw [divCeil, Nat.lt_iff_add_one_le, Nat.le_div_iff_mul_le positive, Nat.add_one_mul]
    omega

theorem holds_iff {pass : Pass} (listed : pass ∈ adam7Passes) {width height x y : Nat} :
    pass.Holds width height x y ↔ (x < width ∧ y < height) ∧
      x % 8 % pass.xStep = pass.x ∧ y % 8 % pass.yStep = pass.y := by
  have table : ∀ pass ∈ adam7Passes,
      (pass.x < pass.xStep ∧ pass.xStep ∣ 8) ∧ pass.y < pass.yStep ∧ pass.yStep ∣ 8 := by decide
  obtain ⟨⟨left, across⟩, top, down⟩ := table pass listed
  rw [Pass.Holds, Pass.columns, Pass.lines, divCeil_places left, divCeil_places top,
    Nat.mod_mod_of_dvd _ across, Nat.mod_mod_of_dvd _ down]
  tauto

theorem sum_pixels (width height : Nat) :
    (adam7Passes.map fun pass => pass.lines height * pass.columns width).sum = width * height := by
  -- two grids that interleave make the grid of half the step
  have halves (size : Nat) : divCeil (size - 0) 8 + divCeil (size - 4) 8 = divCeil (size - 0) 4 ∧
      divCeil (size - 0) 4 + divCeil (size - 2) 4 = divCeil (size - 0) 2 ∧
      divCeil (size - 0) 2 + divCeil (size - 1) 2 = size ∧ divCeil (size - 0) 1 = size := by
    unfold divCeil
    omega
  obtain ⟨fourths, seconds, whole, all⟩ := halves width
  obtain ⟨fourthLines, secondLines, wholeLines, -⟩ := halves height
  simp only [adam7Passes, Pass.lines, Pass.columns, map_cons, map_nil, sum_cons,
    sum_nil, all, Nat.add_zero, ← Nat.add_assoc]
  rw [← Nat.mul_add, fourths, ← Nat.add_mul, fourthLines, ← Nat.mul_add, seconds, ← Nat.add_mul,
    secondLines, ← Nat.mul_add, whole, ← Nat.add_mul, wholeLines, Nat.mul_comm]

theorem sum_scanlines {count width height : Nat} :
    (adam7Passes.map fun pass =>
      pass.lines height * scanline (8 * count) (pass.columns width)).sum =
      width * height * count + (adam7Passes.map fun pass => pass.rows width height).sum := by
  have line (pass : Pass) : pass.lines height * scanline (8 * count) (pass.columns width) =
      pass.lines height * pass.columns width * count + pass.rows width height := by
    rcases narrow : pass.columns width with _ | columns
    · simp [scanline, Pass.rows, narrow]
    · have bytes : divCeil ((columns + 1) * (8 * count)) 8 = (columns + 1) * count := by
        unfold divCeil
        rw [Nat.mul_left_comm]
        omega
      simp only [scanline, Pass.rows, narrow, bytes, Nat.succ_ne_zero, if_false]
      ring
  simp only [line, sum_map_add, sum_map_mul_right, sum_pixels]

theorem passes_cover_once (width height : Nat) :
    (∀ x y, x < width ∧ y < height →
      ∃! pass, pass ∈ adam7Passes ∧ pass.Holds width height x y) ∧
    (∀ pass ∈ adam7Passes, ∀ x y, pass.Holds width height x y → x < width ∧ y < height) ∧
    (adam7Passes.map fun pass => pass.lines height * pass.columns width).sum = width * height ∧
    ∀ {png : List UInt8} {colorType interlace}, png[24]? = some 8 → png[25]? = some colorType →
      png[28]? = some interlace → interlace ≠ 0 →
      width * height * samples colorType +
        (adam7Passes.map fun pass => pass.rows width height).sum < 2 ^ 64 →
      inflatedLen png width height = some (width * height * samples colorType +
        (adam7Passes.map fun pass => pass.rows width height).sum) := by
  refine ⟨?_, fun pass listed x y held => ((holds_iff listed).mp held).1,
    sum_pixels width height, ?_⟩
  · intro x y inside
    have residues : ∀ x < 8, ∀ y < 8, ∃ pass ∈ adam7Passes,
        (x % pass.xStep = pass.x ∧ y % pass.yStep = pass.y) ∧ ∀ other ∈ adam7Passes,
          x % other.xStep = other.x ∧ y % other.yStep = other.y → other = pass := by decide
    obtain ⟨pass, listed, holds, only⟩ :=
      residues (x % 8) (Nat.mod_lt _ (by decide)) (y % 8) (Nat.mod_lt _ (by decide))
    refine ⟨pass, ⟨listed, (holds_iff listed).mpr ⟨inside, holds⟩⟩, ?_⟩
    rintro other ⟨also, held⟩
    exact only other also ((holds_iff also).mp held).2
  · intro png colorType interlace eightBit typed interlaced passes fits
    simp [inflatedLen, eightBit, typed, interlaced, passes, sum_scanlines]
    omega

/-- At the largest size an interlaced RGBA image's length wraps around, and an image that is not
interlaced has fewer lines. -/
theorem passes_wrap :
    let png (interlace : UInt8) : List UInt8 := List.replicate 24 0 ++ [8, 6, 0, 0, interlace]
    let length (side : Nat) := side * side * samples 6 +
      (adam7Passes.map fun pass => pass.rows side side).sum
    inflatedLen (png 1) (2 ^ 32 - 1) (2 ^ 32 - 1) ≠ some (length (2 ^ 32 - 1)) ∧
      inflatedLen (png 0) 8 8 ≠ some (length 8) := by
  decide +kernel

end Monhop.Desktop

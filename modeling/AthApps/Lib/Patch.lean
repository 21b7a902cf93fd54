import AthApps.Lib.Stream

/-!
# Gap coded patches

A patch is a list of hunks.  A hunk passes over `gap` bytes of the image and
replaces the bytes behind them by its data.  On the wire a hunk is one byte for
the gap, one byte for the number of data bytes, and the data, so both numbers
have to be below 256; a longer gap is spelled with hunks that carry no data.
-/

set_option autoImplicit false

namespace AthApps.Lib

open List

variable (space : Nat → UInt8) (start extent : Nat)

/-- `extent` bytes of an address space, from `start` upwards. -/
def window : Bytes :=
  (List.range extent).map fun index => space (start + index)

@[simp] theorem window_length : (window space start extent).length = extent := by
  simp [window]

theorem window_getElem? (start extent index : Nat)
    (bound : index < extent) : (window space start extent)[index]? = some (space (start + index)) := by
  simp [window, bound]

theorem window_congr (space other : Nat → UInt8) (start extent : Nat)
    (same : ∀ index, index < extent → space (start + index) = other (start + index)) :
    window space start extent = window other start extent := by
  apply map_congr_left
  intro index member
  exact same index (mem_range.mp member)

theorem window_append (start first second : Nat) : window space start (first + second) =
      window space start first ++ window space (start + first) second := by
  simp only [window, range_add, map_append, map_map]
  congr 1
  apply map_congr_left
  intro index _
  simp only [Function.comp_apply, Nat.add_assoc]

theorem window_eq_append (start : Nat) (front rest : Bytes) :
    window space start (front ++ rest).length = front ++ rest ↔
      window space start front.length = front ∧
        window space (start + front.length) rest.length = rest := by
  rw [length_append, window_append]
  constructor
  · intro same
    exact append_inj same (by simp)
  · rintro ⟨atFront, atRest⟩
    rw [atFront, atRest]

theorem window_eq_cons (start : Nat) (head : UInt8) (tail : Bytes) :
    window space start (head :: tail).length = head :: tail ↔
      space start = head ∧ window space (start + 1) tail.length = tail := by
  have split := window_eq_append space start [head] tail
  simpa [window] using split

structure Hunk where
  gap : Nat
  data : Bytes
  deriving DecidableEq

namespace Hunk

def Small (hunk : Hunk) : Prop := hunk.gap ≤ 255 ∧ hunk.data.length ≤ 255

instance (hunk : Hunk) : Decidable hunk.Small := inferInstanceAs (Decidable (_ ∧ _))

def encode (hunk : Hunk) : Bytes :=
  UInt8.ofNat hunk.gap :: UInt8.ofNat hunk.data.length :: hunk.data

def finish (hunk : Hunk) (spot : Nat) : Nat := spot + hunk.gap + hunk.data.length

@[simp] theorem encode_length (hunk : Hunk) : hunk.encode.length = hunk.data.length + 2 := rfl

end Hunk

def encodeHunks (hunks : List Hunk) : Bytes := hunks.flatMap Hunk.encode

def finishHunks (spot : Nat) : List Hunk → Nat
  | [] => spot
  | hunk :: rest => finishHunks (hunk.finish spot) rest

/-- The image after the hunks, the first of which starts at `spot`. -/
def patch (spot : Nat) (image : Bytes) : List Hunk → Bytes
  | [] => image
  | hunk :: rest => patch (hunk.finish spot) (overlay image (spot + hunk.gap) hunk.data) rest

@[simp] theorem encodeHunks_nil : encodeHunks [] = [] := rfl

@[simp] theorem encodeHunks_cons (hunk : Hunk) (rest : List Hunk) :
    encodeHunks (hunk :: rest) = hunk.encode ++ encodeHunks rest := rfl

variable (spot : Nat) (image : Bytes) (front rest : List Hunk)

theorem encodeHunks_append :
    encodeHunks (front ++ rest) = encodeHunks front ++ encodeHunks rest := by
  simp [encodeHunks]

theorem encodeHunks_eq_nil (hunks : List Hunk) : encodeHunks hunks = [] ↔ hunks = [] := by
  cases hunks with
  | nil => simp
  | cons hunk rest => simp [Hunk.encode]

theorem finishHunks_append :
    finishHunks spot (front ++ rest) = finishHunks (finishHunks spot front) rest := by
  induction front generalizing spot with
  | nil => rfl
  | cons hunk front ih => exact ih (hunk.finish spot)

theorem patch_append : patch spot image (front ++ rest) =
      patch (finishHunks spot front) (patch spot image front) rest := by
  induction front generalizing spot image with
  | nil => rfl
  | cons hunk front ih => exact ih (hunk.finish spot) _

theorem le_finishHunks (hunks : List Hunk) : spot ≤ finishHunks spot hunks := by
  induction hunks generalizing spot with
  | nil => exact Nat.le_refl spot
  | cons hunk rest ih =>
    have start := ih (hunk.finish spot)
    simp only [Hunk.finish] at start
    simp only [finishHunks, Hunk.finish]
    omega

/-! ## Encoders

An encoder keeps the end of the last hunk, the image a decoder has made so far
and the bytes it has written.  `Emits` says that it went from one such state to
another by adding hunks.
-/

structure Encoder where
  spot : Nat
  image : Bytes
  output : Bytes

def Emits (before after : Encoder) : Prop :=
  ∃ hunks, (∀ hunk ∈ hunks, hunk.Small) ∧ after.spot = finishHunks before.spot hunks ∧
    after.image = patch before.spot before.image hunks ∧
    after.output = before.output ++ encodeHunks hunks

namespace Emits

theorem refl (state : Encoder) : Emits state state :=
  ⟨[], by simp, rfl, rfl, by simp⟩

theorem trans {before middle after : Encoder} (first : Emits before middle)
    (second : Emits middle after) : Emits before after := by
  obtain ⟨front, frontSmall, frontSpot, frontImage, frontOutput⟩ := first
  obtain ⟨rest, restSmall, restSpot, restImage, restOutput⟩ := second
  refine ⟨front ++ rest, ?_, ?_, ?_, ?_⟩
  · intro hunk member
    rcases mem_append.mp member with inFront | inRest
    · exact frontSmall hunk inFront
    · exact restSmall hunk inRest
  · rw [restSpot, frontSpot, finishHunks_append]
  · rw [restImage, frontImage, frontSpot, patch_append]
  · rw [restOutput, frontOutput, encodeHunks_append, append_assoc]

theorem hunk (before : Encoder) (hunk : Hunk) (small : hunk.Small) :
    Emits before
      { spot := hunk.finish before.spot
        image := overlay before.image (before.spot + hunk.gap) hunk.data
        output := before.output ++ hunk.encode } :=
  ⟨[hunk], by simpa using small, rfl, rfl, by simp⟩

end Emits

theorem overlay_nil (image : Bytes) (offset : Nat) (inside : offset ≤ image.length) :
    overlay image offset [] = image := by
  have noHole : offset - image.length = 0 := by omega
  simp [overlay, noHole]

theorem overlay_append (image : Bytes) (offset : Nat) (front rest : Bytes)
    (inside : offset + front.length + rest.length ≤ image.length) :
    overlay (overlay image offset front) (offset + front.length) rest =
      overlay image offset (front ++ rest) := by
  have frontLength : (overlay image offset front).length = image.length :=
    overlay_length_of_le image offset front (by omega)
  apply ext_getElem?
  intro index
  have joined : offset + (front ++ rest).length ≤ image.length := by
    rw [length_append]
    omega
  by_cases inRest : offset + front.length ≤ index ∧ index < offset + front.length + rest.length
  · rw [overlay_getElem?_inside _ _ _ _ inRest.1 inRest.2,
      overlay_getElem?_inside _ _ _ _ (by omega) (by rw [length_append]; omega),
      getElem?_append_right (by omega)]
    congr 1
    omega
  · rw [overlay_getElem?_outside _ _ _ _ (by omega) (by omega)]
    by_cases inFront : offset ≤ index ∧ index < offset + front.length
    · rw [overlay_getElem?_inside _ _ _ _ inFront.1 inFront.2,
        overlay_getElem?_inside _ _ _ _ inFront.1 (by rw [length_append]; omega),
        getElem?_append_left (by omega)]
    · rw [overlay_getElem?_outside _ _ _ _ (by omega) (by omega),
        overlay_getElem?_outside _ _ _ _ joined (by rw [length_append]; omega)]

end AthApps.Lib

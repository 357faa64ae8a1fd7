import Kurtar.Bisection
import Mathlib.Algebra.Order.Ring.Unbundled.Rat
import Mathlib.Data.Rat.Lemmas
import Mathlib.Data.List.Sort
import Mathlib.Algebra.Field.Rat

/-!
# Geohash codes

The encoder bisects longitude and latitude in turn and packs five bits into a
character. Codes nest, their cells hold the encoded points, and two points
have the same code exactly when they lie in the same cell of the grid.
-/

namespace Kurtar.Geohash

open Bisection

def BASE32_ALPHABET : List Char :=
  ['0', '1', '2', '3', '4', '5', '6', '7', '8', '9', 'b', 'c', 'd', 'e', 'f', 'g', 'h', 'j', 'k',
    'm', 'n', 'p', 'q', 'r', 's', 't', 'u', 'v', 'w', 'x', 'y', 'z']

structure EncodeState where
  latMin : ℚ := -90
  latMax : ℚ := 90
  lonMin : ℚ := -180
  lonMax : ℚ := 180
  isEvenBit : Bool := true
  bit : ℕ := 0
  charIndex : ℕ := 0
  hash : String := ""

/-- The bisection of one axis. -/
def bisectStep (latitude longitude : ℚ) (s : EncodeState) : EncodeState :=
  if s.isEvenBit then
    let mid := (s.lonMin+s.lonMax)/2
    if longitude > mid then
      { s with charIndex := s.charIndex ||| 1 <<< (4-s.bit), lonMin := mid }
    else { s with lonMax := mid }
  else
    let mid := (s.latMin+s.latMax)/2
    if latitude > mid then
      { s with charIndex := s.charIndex ||| 1 <<< (4-s.bit), latMin := mid }
    else { s with latMax := mid }

/-- The other axis is next, and with the fifth bit a character is written. -/
def endTurn (s : EncodeState) : EncodeState :=
  let s := { s with isEvenBit := !s.isEvenBit }
  if s.bit < 4 then { s with bit := s.bit+1 }
  else { s with hash := s.hash.push (BASE32_ALPHABET.getD s.charIndex ' '), bit := 0, charIndex := 0 }

/-- One turn of the loop. -/
def encodeStep (latitude longitude : ℚ) (s : EncodeState) : EncodeState :=
  endTurn (bisectStep latitude longitude s)

/-- The loop, for at most that many turns. -/
def encodeLoop (latitude longitude : ℚ) (precision : ℕ) : ℕ → EncodeState → EncodeState
  | 0, s => s
  | fuel+1, s =>
    if s.hash.length < precision then
      encodeLoop latitude longitude precision fuel (encodeStep latitude longitude s)
    else s

/-- Five turns for each character. -/
def encodeGeohash (latitude longitude : ℚ) (precision : ℕ) : String :=
  (encodeLoop latitude longitude precision (5*precision) {}).hash

def latitudes : Extent ℚ := ⟨-90, 90⟩

def longitudes : Extent ℚ := ⟨-180, 180⟩

/-- The bits that a character stands for, the highest first. -/
def charBits (c : Char) : List Bool :=
  [4, 3, 2, 1, 0].map (BASE32_ALPHABET.idxOf c).testBit

/-- The longitudes and latitudes left by replaying the bits of a code. -/
def cellOf (code : String) : Extent ℚ × Extent ℚ :=
  let cell := replayBoth longitudes latitudes (code.toList.flatMap charBits)
  if code.length%2 = 0 then cell else (cell.2, cell.1)

section Loop

variable {latitude longitude : ℚ} {s : EncodeState} {precision fuel : ℕ}

/-- The axis whose turn it is. -/
def current (latitude longitude : ℚ) (s : EncodeState) : Axis ℚ :=
  if s.isEvenBit then ⟨longitude, s.lonMin, s.lonMax⟩ else ⟨latitude, s.latMin, s.latMax⟩

def other (latitude longitude : ℚ) (s : EncodeState) : Axis ℚ :=
  if s.isEvenBit then ⟨latitude, s.latMin, s.latMax⟩ else ⟨longitude, s.lonMin, s.lonMax⟩

/-- The index with one more bit. -/
def withBit (charIndex bit : ℕ) (b : Bool) : ℕ :=
  if b then charIndex ||| 1 <<< (4-bit) else charIndex

/-- The index with the remaining bits. -/
def withBits (charIndex bit : ℕ) : List Bool → ℕ
  | [] => charIndex
  | b :: rest => withBits (withBit charIndex bit b) (bit+1) rest

/-- One bisection takes a bit of the axis whose turn it is. -/
theorem bisectStep_spec (latitude longitude : ℚ) (s : EncodeState) :
    (bisectStep latitude longitude s).bit = s.bit ∧
      (bisectStep latitude longitude s).hash = s.hash ∧
      (bisectStep latitude longitude s).charIndex =
        withBit s.charIndex s.bit (current latitude longitude s).bit ∧
      current latitude longitude (bisectStep latitude longitude s) =
        (current latitude longitude s).next ∧
      other latitude longitude (bisectStep latitude longitude s) = other latitude longitude s := by
  unfold bisectStep current other
  cases s.isEvenBit with
  | true =>
    by_cases hmid : (s.lonMin+s.lonMax)/2 < longitude
    · simp [hmid, withBit, Axis.bit, Axis.next, Extent.half]
    · simp [hmid, withBit, Axis.bit, Axis.next, Extent.half]
  | false =>
    by_cases hmid : (s.latMin+s.latMax)/2 < latitude
    · simp [hmid, withBit, Axis.bit, Axis.next, Extent.half]
    · simp [hmid, withBit, Axis.bit, Axis.next, Extent.half]

theorem endTurn_axes (latitude longitude : ℚ) (s : EncodeState) :
    current latitude longitude (endTurn s) = other latitude longitude s ∧
      other latitude longitude (endTurn s) = current latitude longitude s := by
  unfold endTurn current other
  by_cases hbit : s.bit < 4
  · cases s.isEvenBit <;> simp [hbit]
  · cases s.isEvenBit <;> simp [hbit]

/-- A turn passes to the other axis and keeps the half that holds the point. -/
theorem encodeStep_axes (latitude longitude : ℚ) (s : EncodeState) :
    current latitude longitude (encodeStep latitude longitude s) = other latitude longitude s ∧
      other latitude longitude (encodeStep latitude longitude s) =
        (current latitude longitude s).next := by
  obtain ⟨_, _, _, hcurrent, hother⟩ := bisectStep_spec latitude longitude s
  obtain ⟨hnext, hthis⟩ := endTurn_axes latitude longitude (bisectStep latitude longitude s)
  exact ⟨hnext.trans hother, hthis.trans hcurrent⟩

/-- Before the fifth bit a turn only takes the bit. -/
theorem encodeStep_bit (latitude longitude : ℚ) (h : s.bit < 4) :
    (encodeStep latitude longitude s).bit = s.bit+1 ∧
      (encodeStep latitude longitude s).hash = s.hash ∧
      (encodeStep latitude longitude s).charIndex =
        withBit s.charIndex s.bit (current latitude longitude s).bit := by
  obtain ⟨hbit, hhash, hindex, _, _⟩ := bisectStep_spec latitude longitude s
  have hlt : (bisectStep latitude longitude s).bit < 4 := by omega
  rw [encodeStep, endTurn, if_pos hlt]
  exact ⟨by rw [hbit], hhash, hindex⟩

/-- With the fifth bit the character is written. -/
theorem encodeStep_char (latitude longitude : ℚ) (h : s.bit = 4) :
    (encodeStep latitude longitude s).bit = 0 ∧
      (encodeStep latitude longitude s).charIndex = 0 ∧
      (encodeStep latitude longitude s).hash = s.hash.push (BASE32_ALPHABET.getD
        (withBit s.charIndex s.bit (current latitude longitude s).bit) ' ') := by
  obtain ⟨hbit, hhash, hindex, _, _⟩ := bisectStep_spec latitude longitude s
  have hnot : ¬ (bisectStep latitude longitude s).bit < 4 := by omega
  rw [encodeStep, endTurn, if_neg hnot]
  exact ⟨rfl, rfl, by rw [hhash, hindex]⟩

/-- The turns that complete a character write the one of its bits. -/
theorem encodeLoop_char (latitude longitude : ℚ) (fuel r : ℕ) (hbit : s.bit+r = 4) (hmore : s.hash.length < precision) :
    ∃ s', encodeLoop latitude longitude precision (fuel+(r+1)) s =
        encodeLoop latitude longitude precision fuel s' ∧ s'.bit = 0 ∧ s'.charIndex = 0 ∧
      s'.hash = s.hash.push (BASE32_ALPHABET.getD (withBits s.charIndex s.bit
        (interleave (r+1) (current latitude longitude s) (other latitude longitude s))) ' ') ∧
      (current latitude longitude s', other latitude longitude s') =
        advance (r+1) (current latitude longitude s) (other latitude longitude s) := by
  induction r generalizing s with
  | zero =>
    obtain ⟨hcurrent, hother⟩ := encodeStep_axes latitude longitude s
    obtain ⟨hzero, hindex, hhash⟩ := encodeStep_char latitude longitude hbit
    refine ⟨encodeStep latitude longitude s, ?_, hzero, hindex, hhash, ?_⟩
    · rw [encodeLoop, if_pos hmore]
    · rw [hcurrent, hother]
      rfl
  | succ r ih =>
    obtain ⟨hcurrent, hother⟩ := encodeStep_axes latitude longitude s
    obtain ⟨hnext, hhash, hindex⟩ := encodeStep_bit latitude longitude (by omega : s.bit < 4)
    obtain ⟨s', hloop, hzero, hindex', hhash', haxes⟩ := ih (s := encodeStep latitude longitude s)
      (by omega) (by rw [hhash]; exact hmore)
    refine ⟨s', ?_, hzero, hindex', ?_, ?_⟩
    · rw [← hloop, ← Nat.add_assoc, encodeLoop, if_pos hmore]
    · rw [hhash', hhash, hnext, hindex, hcurrent, hother]
      rfl
    · rw [haxes, hcurrent, hother]
      rfl

/-- The character of five bits. -/
def charOf (bits : List Bool) : Char := BASE32_ALPHABET.getD (withBits 0 0 bits) ' '

/-- The characters of bits taken in turn. -/
def codeOf : ℕ → Axis ℚ → Axis ℚ → List Char
  | 0, _, _ => []
  | n+1, a, b => charOf (interleave 5 a b) :: codeOf n (advance 5 a b).1 (advance 5 a b).2

/-- The loop writes the remaining characters. -/
theorem encodeLoop_code (latitude longitude : ℚ) (k : ℕ) (hbit : s.bit = 0) (hindex : s.charIndex = 0)
    (hlength : s.hash.length+k = precision) :
    (encodeLoop latitude longitude precision (5*k) s).hash.toList =
      s.hash.toList ++ codeOf k (current latitude longitude s) (other latitude longitude s) := by
  induction k generalizing s with
  | zero => rw [Nat.mul_zero, encodeLoop, codeOf, List.append_nil]
  | succ k ih =>
    obtain ⟨s', hloop, hbit', hindex', hhash, haxes⟩ := encodeLoop_char latitude longitude
      (5*k) 4 (by omega) (by omega : s.hash.length < precision)
    rw [Nat.mul_succ, hloop, ih hbit' hindex' (by rw [hhash, String.length_push]; omega), hhash,
      String.toList_push, List.append_assoc, codeOf, ← haxes, hbit, hindex]
    rfl

end Loop

section Codes

variable {a b a' b' : Axis ℚ} {latitude longitude latitude' longitude' : ℚ} {n m : ℕ}

def latitudeAxis (latitude : ℚ) : Axis ℚ := ⟨latitude, latitudes⟩

def longitudeAxis (longitude : ℚ) : Axis ℚ := ⟨longitude, longitudes⟩

/-- The encoder writes the characters of the bits taken in turn, longitude first. -/
theorem toList_encodeGeohash (latitude longitude : ℚ) (precision : ℕ) :
    (encodeGeohash latitude longitude precision).toList =
      codeOf precision (longitudeAxis longitude) (latitudeAxis latitude) := by
  have hlength : ({} : EncodeState).hash.length+precision = precision := Nat.zero_add precision
  have hcode := encodeLoop_code latitude longitude precision rfl rfl hlength
  exact hcode

theorem length_codeOf : (codeOf n a b).length = n := by
  induction n generalizing a b with
  | zero => rfl
  | succ n ih => rw [codeOf, List.length_cons, ih]

theorem length_encodeGeohash (latitude longitude : ℚ) (n : ℕ) :
    (encodeGeohash latitude longitude n).length = n := by
  rw [← String.length_toList, toList_encodeGeohash, length_codeOf]

/-- A shorter code is the beginning of a longer one. -/
theorem codeOf_take (h : n ≤ m) : codeOf n a b = (codeOf m a b).take n := by
  induction n generalizing m a b with
  | zero => rfl
  | succ n ih =>
    cases m with
    | zero => omega
    | succ m => rw [codeOf, codeOf, List.take_succ_cons, ← ih (by omega)]

theorem charBits_charOf_five : ∀ b₀ b₁ b₂ b₃ b₄ : Bool,
    charBits (charOf [b₀, b₁, b₂, b₃, b₄]) = [b₀, b₁, b₂, b₃, b₄] := by
  decide +kernel

/-- Five bits are read back from their character. -/
theorem charBits_charOf : charBits (charOf (interleave 5 a b)) = interleave 5 a b :=
  charBits_charOf_five _ _ _ _ _

theorem flatMap_charBits_codeOf : (codeOf n a b).flatMap charBits = interleave (5*n) a b := by
  induction n generalizing a b with
  | zero => rfl
  | succ n ih =>
    rw [codeOf, List.flatMap_cons, charBits_charOf, ih, Nat.mul_succ, Nat.add_comm,
      interleave_add]

/-- Codes agree when the bits do. -/
theorem codeOf_eq_iff (ha : a.range = a'.range) (hb : b.range = b'.range) :
    codeOf n a b = codeOf n a' b' ↔ interleave (5*n) a b = interleave (5*n) a' b' := by
  constructor
  · intro h
    rw [← flatMap_charBits_codeOf, h, flatMap_charBits_codeOf]
  · induction n generalizing a b a' b' with
    | zero => exact fun _ => rfl
    | succ n ih =>
      intro h
      rw [Nat.mul_succ, Nat.add_comm, interleave_add, interleave_add] at h
      obtain ⟨hfirst, hrest⟩ := List.append_inj h (length_interleave.trans length_interleave.symm)
      obtain ⟨ha', hb'⟩ := range_advance ha hb hfirst
      rw [codeOf, codeOf, hfirst, ih ha' hb' hrest]

/-- Two points are in the same cell of the grid of a code length. -/
def SameCell (n : ℕ) (latitude longitude latitude' longitude' : ℚ) : Prop :=
  (∃ k < 2^((5*n+1)/2), InCell longitudes ((5*n+1)/2) k longitude ∧
    InCell longitudes ((5*n+1)/2) k longitude') ∧
  ∃ k < 2^(5*n/2), InCell latitudes (5*n/2) k latitude ∧ InCell latitudes (5*n/2) k latitude'

/-- Two points have the same code exactly when they are in the same cell. -/
theorem encodeGeohash_eq_iff (hlat : latitudes.Contains latitude)
    (hlon : longitudes.Contains longitude) (hlat' : latitudes.Contains latitude')
    (hlon' : longitudes.Contains longitude') :
    encodeGeohash latitude longitude n = encodeGeohash latitude' longitude' n ↔
      SameCell n latitude longitude latitude' longitude' := by
  have ha : (longitudeAxis longitude).range = (longitudeAxis longitude').range := rfl
  have hb : (latitudeAxis latitude).range = (latitudeAxis latitude').range := rfl
  have hlonWidth : (longitudeAxis longitude).range.lo < (longitudeAxis longitude).range.hi := by
    norm_num [longitudeAxis, longitudes]
  have hlatWidth : (latitudeAxis latitude).range.lo < (latitudeAxis latitude).range.hi := by
    norm_num [latitudeAxis, latitudes]
  rw [← String.toList_inj, toList_encodeGeohash, toList_encodeGeohash, codeOf_eq_iff ha hb,
    interleave_eq_iff ha hb, bits_eq_iff ha hlonWidth hlon hlon',
    bits_eq_iff hb hlatWidth hlat hlat']
  rfl

/-- Replaying a code leaves a cell that holds the encoded point. -/
theorem contains_cellOf (hlat : latitudes.Contains latitude)
    (hlon : longitudes.Contains longitude) :
    (cellOf (encodeGeohash latitude longitude n)).1.Contains longitude ∧
      (cellOf (encodeGeohash latitude longitude n)).2.Contains latitude := by
  have hboth := contains_replayBoth (a := longitudeAxis longitude) (b := latitudeAxis latitude)
    (m := 5*n) hlon hlat
  unfold cellOf
  rw [length_encodeGeohash, toList_encodeGeohash, flatMap_charBits_codeOf]
  have hparity : 5*n%2 = 0 ↔ n%2 = 0 := by omega
  simp only [hparity] at hboth
  by_cases heven : n%2 = 0
  · simp only [heven, if_true] at hboth ⊢
    exact hboth
  · simp only [heven, if_false] at hboth ⊢
    exact ⟨hboth.2, hboth.1⟩

end Codes

/-- The reference vector of the encoder's description. -/
example : encodeGeohash (426/10) (-56/10) 5 = "ezs42" := by decide +kernel

section CacheKeys

/-- The values among the filters. -/
inductive FilterValue where
  | null
  | number (n : ℕ)
  | text (s : String)
  | texts (items : List String)

/-- A character inside a JSON string. -/
def escapeJson (c : Char) : List Char :=
  if c = '"' then ['\\', '"']
  else if c = '\\' then ['\\', '\\']
  else if c = '\x08' then ['\\', 'b']
  else if c = '\x0c' then ['\\', 'f']
  else if c = '\n' then ['\\', 'n']
  else if c = '\r' then ['\\', 'r']
  else if c = '\t' then ['\\', 't']
  else if c.toNat < 32 then
    ['\\', 'u', '0', '0', Nat.digitChar (c.toNat/16), Nat.digitChar (c.toNat%16)]
  else [c]

def quoteJson (s : String) : String :=
  "\"" ++ String.ofList (s.toList.flatMap escapeJson) ++ "\""

def stringifyValue : FilterValue → String
  | .null => "null"
  | .number n => toString n
  | .text s => quoteJson s
  | .texts items => "[" ++ ",".intercalate (items.map quoteJson) ++ "]"

/-- `JSON.stringify` of an object with these entries. -/
def stringify (entries : List (String × FilterValue)) : String :=
  "\x7b" ++ ",".intercalate (entries.map fun e => quoteJson e.1 ++ ":" ++ stringifyValue e.2) ++ "\x7d"

/-- `sort()`, by the characters of the texts. -/
def sorted {α : Type} (key : α → String) (l : List α) : List α :=
  l.insertionSort fun a b => ¬ key b < key a

def CACHE_VERSION : String := "v1"

def GEOHASH_PRECISION : ℕ := 5

structure DiscoveryOffersCacheParams where
  lat : ℚ
  lng : ℚ
  radiusM : ℕ
  category : Option String
  diet : Option (List String)
  pickupAfter : Option String
  pickupBefore : Option String
  q : Option String
  page : ℕ
  pageSize : ℕ

def orNull (s : Option String) : FilterValue := (s.map .text).getD .null

/-- The filters, in the order in which the source lists them. -/
def filters (params : DiscoveryOffersCacheParams) : List (String × FilterValue) :=
  [("radiusM", .number params.radiusM),
    ("category", orNull params.category),
    ("diet", match params.diet with
      | some diet => if 0 < diet.length then .texts (sorted id diet) else .null
      | none => .null),
    ("pickupAfter", orNull params.pickupAfter),
    ("pickupBefore", orNull params.pickupBefore),
    ("q", orNull params.q),
    ("page", .number params.page),
    ("pageSize", .number params.pageSize)]

/-- The cache key; the digest is that of the platform. -/
def buildDiscoveryOffersCacheKey (sha1Hex : String → String)
    (params : DiscoveryOffersCacheParams) : String :=
  let geohash := encodeGeohash params.lat params.lng GEOHASH_PRECISION
  let canonical := sorted Prod.fst (filters params)
  let hash := sha1Hex (stringify canonical)
  "disc:" ++ CACHE_VERSION ++ ":" ++ geohash ++ ":" ++ hash

variable {sha1Hex : String → String} {params params' : DiscoveryOffersCacheParams}

/-- One key comes from one geohash code. -/
theorem encodeGeohash_of_key (h : buildDiscoveryOffersCacheKey sha1Hex params =
    buildDiscoveryOffersCacheKey sha1Hex params') :
    encodeGeohash params.lat params.lng GEOHASH_PRECISION =
      encodeGeohash params'.lat params'.lng GEOHASH_PRECISION := by
  have hlist := congrArg String.toList h
  simp only [buildDiscoveryOffersCacheKey, String.toList_append, List.append_assoc,
    List.append_cancel_left_eq] at hlist
  rw [← String.toList_inj]
  refine List.append_inj_left hlist ?_
  rw [String.length_toList, String.length_toList, length_encodeGeohash, length_encodeGeohash]

/-- Points of one cell are within a cell of each other. -/
theorem SameCell.near {n : ℕ} {latitude longitude latitude' longitude' : ℚ}
    (h : SameCell n latitude longitude latitude' longitude') :
    |longitude-longitude'| ≤ 360/2^((5*n+1)/2) ∧ |latitude-latitude'| ≤ 180/2^(5*n/2) := by
  obtain ⟨⟨k, _, hlon, hlon'⟩, l, _, hlat, hlat'⟩ := h
  have hwidth : longitudes.hi-longitudes.lo = 360 ∧ latitudes.hi-latitudes.lo = 180 := by
    norm_num [longitudes, latitudes]
  rw [← hwidth.1, ← hwidth.2, abs_sub_le_iff, abs_sub_le_iff]
  exact ⟨⟨sub_le_of_inCell hlon hlon', sub_le_of_inCell hlon' hlon⟩,
    sub_le_of_inCell hlat hlat', sub_le_of_inCell hlat' hlat⟩

/-- Codes nest, their cells hold the encoded point, equality of codes is
equality of cells, and two users with one cache key are within one cell. -/
theorem geohash_cells (sha1Hex : String → String) {latitude longitude : ℚ}
    (hlat : latitudes.Contains latitude) (hlon : longitudes.Contains longitude) :
    (∀ n m, n ≤ m → (encodeGeohash latitude longitude n).length = n ∧
      (encodeGeohash latitude longitude n).toList =
        (encodeGeohash latitude longitude m).toList.take n) ∧
    (∀ n, (cellOf (encodeGeohash latitude longitude n)).1.Contains longitude ∧
      (cellOf (encodeGeohash latitude longitude n)).2.Contains latitude) ∧
    (∀ n latitude' longitude', latitudes.Contains latitude' → longitudes.Contains longitude' →
      (encodeGeohash latitude longitude n = encodeGeohash latitude' longitude' n ↔
        SameCell n latitude longitude latitude' longitude')) ∧
    ∀ params params' : DiscoveryOffersCacheParams,
      params.lat = latitude → params.lng = longitude → latitudes.Contains params'.lat →
      longitudes.Contains params'.lng →
      buildDiscoveryOffersCacheKey sha1Hex params = buildDiscoveryOffersCacheKey sha1Hex params' →
        |params.lng-params'.lng| ≤ 360/2^13 ∧ |params.lat-params'.lat| ≤ 180/2^12 := by
  refine ⟨?_, fun n => contains_cellOf hlat hlon, ?_, ?_⟩
  · intro n m h
    rw [toList_encodeGeohash, toList_encodeGeohash]
    exact ⟨length_encodeGeohash _ _ n, codeOf_take h⟩
  · intro n latitude' longitude' hlat' hlon'
    exact encodeGeohash_eq_iff hlat hlon hlat' hlon'
  · intro params params' hlatitude hlongitude hlat' hlon' hkey
    rw [← hlatitude] at hlat
    rw [← hlongitude] at hlon
    have hcell := (encodeGeohash_eq_iff hlat hlon hlat' hlon').mp (encodeGeohash_of_key hkey)
    exact hcell.near

theorem geohash_cells_sample :
    (cellOf (encodeGeohash (426/10) (-56/10) 5)).1.Contains (-56/10) ∧
      (cellOf (encodeGeohash (426/10) (-56/10) 5)).2.Contains (426/10) :=
  (geohash_cells id (by norm_num [latitudes, Extent.Contains])
    (by norm_num [longitudes, Extent.Contains])).2.1 5

end CacheKeys

end Kurtar.Geohash

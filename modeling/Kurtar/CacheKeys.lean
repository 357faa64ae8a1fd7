import Mathlib.Data.String.Basic
import Kurtar.Geohash
import Kurtar.SelfDelimiting

/-!
# Keys of cached searches

The text of the sorted filters is JSON, in which every value can be told from
what follows it, so it is known from the text what was filtered for. Two
searches have one cache key exactly when they are in one cell of the grid and
filter for the same, unless their texts have one digest.
-/

namespace Kurtar.CacheKeys

open Bisection Geohash SelfDelimiting

section Json

/-- The character that a letter after the backslash stands for. -/
def shortEscape (c : Char) : Char :=
  if c = 'b' then '\x08'
  else if c = 'f' then '\x0c'
  else if c = 'n' then '\n'
  else if c = 'r' then '\r'
  else if c = 't' then '\t'
  else c

def hexValue (c : Char) : ℕ := if c.isDigit then c.toNat-48 else c.toNat-87

/-- Reads one character of a JSON string. -/
def readEscape : List Char → Option (Char × List Char)
  | [] => none
  | c :: rest =>
    if c = '\\' then
      match rest with
      | 'u' :: _ :: _ :: high :: low :: rest =>
        some (Char.ofNat (16*hexValue high+hexValue low), rest)
      | c :: rest => some (shortEscape c, rest)
      | [] => none
    else some (c, rest)

theorem hex_of_lt : ∀ n < 32, Char.ofNat (16*hexValue (Nat.digitChar (n/16))+
    hexValue (Nat.digitChar (n%16))) = Char.ofNat n := by
  decide +kernel

theorem readEscape_escapeJson (c : Char) (rest : List Char) :
    readEscape (escapeJson c ++ rest) = some (c, rest) := by
  unfold escapeJson
  split_ifs with hquote hback hb hf hn hr ht hcontrol
  · rw [hquote]
    rfl
  · rw [hback]
    rfl
  · rw [hb]
    rfl
  · rw [hf]
    rfl
  · rw [hn]
    rfl
  · rw [hr]
    rfl
  · rw [ht]
    rfl
  · have hchar := hex_of_lt c.toNat hcontrol
    rw [Char.ofNat_toNat] at hchar
    exact congrArg (fun d => some (d, rest)) hchar
  · exact if_neg hback

theorem delimited_escapeJson : Delimited escapeJson anyRest :=
  delimited_of_reader readEscape fun c rest _ => readEscape_escapeJson c rest

/-- No character is written as the end of the string. -/
theorem escapeJson_ne_quote (c : Char) (x y : List Char) : escapeJson c ++ x ≠ ['"'] ++ y := by
  intro heq
  have hread := readEscape_escapeJson c x
  rw [heq] at hread
  have hc : c = '"' := (Prod.mk.inj (Option.some.inj hread)).1.symm
  rw [hc] at heq
  cases heq

theorem delimited_quoteJson : Delimited (fun s : String => (quoteJson s).toList) anyRest := by
  have hmany := (delimited_escapeJson.many ['"'] escapeJson_ne_quote (fun _ => trivial)
    fun _ _ => trivial).after ['"']
  refine hmany.comap (fun s r h => String.toList_inj.mp h) fun s => ?_
  simp only [quoteJson, String.toList_append, String.toList_ofList, List.append_assoc]
  rfl

def NoDigit (x : List Char) : Prop := ∀ c ∈ x.head?, c.isDigit = false

theorem delimited_digits : Delimited (Nat.toDigits 10) NoDigit := by
  refine delimited_of_reader
    (fun text => some (Nat.ofDigitChars 10 (text.takeWhile Char.isDigit) 0,
      text.dropWhile Char.isDigit)) fun n x hx => ?_
  have hdigits : ∀ c ∈ Nat.toDigits 10 n, c.isDigit = true :=
    fun c hc => Nat.isDigit_of_mem_toDigits (by decide) (by decide) hc
  have hrest : x.takeWhile Char.isDigit = [] ∧ x.dropWhile Char.isDigit = x := by
    cases x with
    | nil => exact ⟨rfl, rfl⟩
    | cons c x =>
      have hc : ¬ c.isDigit = true := by rw [hx c rfl]; exact Bool.false_ne_true
      exact ⟨List.takeWhile_cons_of_neg hc, List.dropWhile_cons_of_neg hc⟩
  rw [List.takeWhile_append_of_pos hdigits, List.dropWhile_append_of_pos hdigits, hrest.1, hrest.2,
    List.append_nil, Nat.ofDigitChars_ten_toDigits]

/-- What the text of a value begins with. -/
def Opens : FilterValue → Char → Prop
  | .null, c => c = 'n'
  | .number _, c => c.isDigit = true
  | .text _, c => c = '"'
  | .texts _, c => c = '['

theorem toList_number (n : ℕ) : (stringifyValue (.number n)).toList = Nat.toDigits 10 n := by
  rw [stringifyValue, Nat.toString_eq_ofList_toDigits, String.toList_ofList]

theorem opens_stringifyValue (v : FilterValue) :
    ∃ c rest, (stringifyValue v).toList = c :: rest ∧ Opens v c := by
  cases v with
  | null => exact ⟨'n', "ull".toList, rfl, rfl⟩
  | number n =>
    rw [toList_number]
    cases hdigits : Nat.toDigits 10 n with
    | nil => exact absurd hdigits Nat.toDigits_ne_nil
    | cons c rest =>
      exact ⟨c, rest, rfl, Nat.isDigit_of_mem_toDigits (b := 10) (n := n) (by decide) (by decide)
        (hdigits ▸ List.mem_cons_self)⟩
  | text s =>
    refine ⟨'"', s.toList.flatMap escapeJson ++ ['"'], ?_, rfl⟩
    simp only [stringifyValue, quoteJson, String.toList_append, String.toList_ofList,
      List.append_assoc]
    rfl
  | texts items =>
    refine ⟨'[', (",".intercalate (items.map quoteJson)).toList ++ [']'], ?_, rfl⟩
    simp only [stringifyValue, String.toList_append, List.append_assoc]
    rfl

theorem quoteJson_ne {s : String} {c : Char} (hc : c ≠ '"') (x y : List Char) :
    (quoteJson s).toList ++ x ≠ [c] ++ y := by
  obtain ⟨d, rest, htext, hd⟩ := opens_stringifyValue (.text s)
  intro heq
  change (stringifyValue (.text s)).toList ++ x = [c] ++ y at heq
  rw [htext] at heq
  exact hc ((List.cons.inj heq).1.symm.trans hd)

theorem delimited_texts :
    Delimited (fun items => (stringifyValue (.texts items)).toList) anyRest := by
  have hlist := (delimited_quoteJson.separated [','] [']'] (fun x y heq => by cases heq)
    (fun s x y => quoteJson_ne (by decide) x y) (fun _ => trivial) fun _ => trivial).after ['[']
  refine hlist.comap Function.injective_id fun items => ?_
  rw [stringifyValue, String.toList_append, String.toList_append, String.toList_intercalate,
    List.map_map, List.append_assoc]
  rfl

theorem delimited_value : Delimited (fun v => (stringifyValue v).toList) NoDigit := by
  intro v w x y hx hy heq
  obtain ⟨c, rest, htext, hc⟩ := opens_stringifyValue v
  obtain ⟨d, rest', htext', hd⟩ := opens_stringifyValue w
  have hhead : c = d := by
    simp only [htext, htext'] at heq
    exact (List.cons.inj heq).1
  rw [← hhead] at hd
  cases v with
  | null =>
    rw [hc] at hd
    cases w with
    | null => exact ⟨rfl, List.append_cancel_left heq⟩
    | _ => exact absurd hd (by simp [Opens])
  | number n =>
    cases w with
    | number m =>
      simp only [toList_number] at heq
      obtain ⟨rfl, hrest⟩ := delimited_digits n m x y hx hy heq
      exact ⟨rfl, hrest⟩
    | _ =>
      rw [hd] at hc
      exact absurd hc Bool.false_ne_true
  | text s =>
    rw [hc] at hd
    cases w with
    | text r =>
      obtain ⟨rfl, hrest⟩ := delimited_quoteJson s r x y trivial trivial heq
      exact ⟨rfl, hrest⟩
    | _ => exact absurd hd (by simp [Opens])
  | texts items =>
    rw [hc] at hd
    cases w with
    | texts items' =>
      obtain ⟨rfl, hrest⟩ := delimited_texts items items' x y trivial trivial heq
      exact ⟨rfl, hrest⟩
    | _ => exact absurd hd (by simp [Opens])

theorem noDigit_cons {c : Char} {x : List Char} (h : c.isDigit = false) : NoDigit (c :: x) := by
  intro d hd
  cases hd
  exact h

/-- A key with its value. -/
theorem delimited_entry : Delimited (fun e : String × FilterValue =>
    (quoteJson e.1 ++ ":" ++ stringifyValue e.2).toList) NoDigit := by
  have hpair := delimited_quoteJson.pair (delimited_value.after [':']) fun _ _ _ => trivial
  refine hpair.comap Function.injective_id fun e => ?_
  rw [String.toList_append, String.toList_append, List.append_assoc]
  rfl

/-- An object is known from its text. -/
theorem stringify_injective : Function.Injective stringify := by
  have hfirst : ∀ (e : String × FilterValue) x y,
      (quoteJson e.1 ++ ":" ++ stringifyValue e.2).toList ++ x ≠ ['\x7d'] ++ y := by
    intro e x y heq
    rw [String.toList_append, String.toList_append, List.append_assoc, List.append_assoc] at heq
    exact quoteJson_ne (by decide) _ y heq
  have hlist := (delimited_entry.separated [','] ['\x7d'] (fun x y heq => by cases heq) hfirst
    (fun _ => noDigit_cons (by decide)) fun _ => noDigit_cons (by decide)).after ['\x7b']
  have hobject : Delimited (fun entries => (stringify entries).toList) anyRest := by
    refine hlist.comap Function.injective_id fun entries => ?_
    rw [stringify, String.toList_append, String.toList_append, String.toList_intercalate,
      List.map_map, List.append_assoc]
    rfl
  exact fun a b h => hobject.injective trivial (congrArg String.toList h)

end Json

section Filters

variable {params params' : DiscoveryOffersCacheParams}

/-- The canonical text of what is filtered for. -/
def canonicalText (params : DiscoveryOffersCacheParams) : String :=
  stringify (sorted Prod.fst (filters params))

/-- The same filters, whatever the order of the diet flags. -/
structure SameFilters (params params' : DiscoveryOffersCacheParams) : Prop where
  radiusM : params.radiusM = params'.radiusM
  category : params.category = params'.category
  diet : (params.diet.getD []).Perm (params'.diet.getD [])
  pickupAfter : params.pickupAfter = params'.pickupAfter
  pickupBefore : params.pickupBefore = params'.pickupBefore
  q : params.q = params'.q
  page : params.page = params'.page
  pageSize : params.pageSize = params'.pageSize

theorem orNull_injective : Function.Injective orNull := by
  intro s r h
  cases s <;> cases r <;> cases h <;> rfl

theorem perm_sorted {α : Type} (key : α → String) (l : List α) : (sorted key l).Perm l :=
  List.perm_insertionSort _ l

/-- The flags as they are written. -/
def dietValue (diet : Option (List String)) : FilterValue :=
  match diet with
  | some diet => if 0 < diet.length then .texts (sorted id diet) else .null
  | none => .null

theorem dietValue_getD (diet : Option (List String)) :
    dietValue diet = dietValue (some (diet.getD [])) := by
  cases diet <;> rfl

/-- Sorted texts do not depend on the order they came in. -/
theorem sorted_eq_of_perm {l m : List String} (h : l.Perm m) : sorted id l = sorted id m := by
  let le (a b : String) : Prop := ¬ id b < id a
  have : Std.Total le := ⟨fun a b => (le_total a b).imp not_lt_of_ge not_lt_of_ge⟩
  have : IsTrans String le := ⟨fun a b c hab hbc => not_lt_of_ge
    (le_trans (not_lt.mp hab) (not_lt.mp hbc))⟩
  have : Std.Antisymm le := ⟨fun a b hab hba => le_antisymm (not_lt.mp hab) (not_lt.mp hba)⟩
  have hperm : (sorted id l).Perm (sorted id m) :=
    (perm_sorted id l).trans (h.trans (perm_sorted id m).symm)
  exact hperm.eq_of_pairwise' (List.pairwise_insertionSort le l) (List.pairwise_insertionSort le m)

theorem dietValue_eq_iff (diet diet' : Option (List String)) :
    dietValue diet = dietValue diet' ↔ (diet.getD []).Perm (diet'.getD []) := by
  rw [dietValue_getD diet, dietValue_getD diet']
  generalize diet.getD [] = l
  generalize diet'.getD [] = m
  unfold dietValue
  dsimp only
  constructor
  · intro h
    split_ifs at h with hl hm hm
    · have hsorted : sorted id l = sorted id m := FilterValue.texts.inj h
      exact (perm_sorted id l).symm.trans (hsorted ▸ perm_sorted id m)
    · rw [List.length_eq_zero_iff.mp (Nat.eq_zero_of_not_pos hl),
        List.length_eq_zero_iff.mp (Nat.eq_zero_of_not_pos hm)]
  · intro h
    rw [h.length_eq, sorted_eq_of_perm h]

theorem filters_eq (params : DiscoveryOffersCacheParams) : filters params =
    [("radiusM", .number params.radiusM), ("category", orNull params.category),
      ("diet", dietValue params.diet), ("pickupAfter", orNull params.pickupAfter),
      ("pickupBefore", orNull params.pickupBefore), ("q", orNull params.q),
      ("page", .number params.page), ("pageSize", .number params.pageSize)] := rfl

/-- The text of the filters says what they are. -/
theorem canonicalText_eq_iff :
    canonicalText params = canonicalText params' ↔ SameFilters params params' := by
  constructor
  · intro h
    have hsorted := stringify_injective h
    have hperm : (filters params).Perm (filters params') :=
      (perm_sorted Prod.fst _).symm.trans (hsorted ▸ perm_sorted Prod.fst _)
    have hmem : ∀ e ∈ filters params, e ∈ filters params' := fun e he => hperm.subset he
    rw [filters_eq params] at hmem
    simp only [List.forall_mem_cons] at hmem
    simp only [filters_eq, List.mem_cons, Prod.mk.injEq, String.reduceEq, false_and, true_and, false_or, or_false, List.not_mem_nil, FilterValue.number.injEq,
      orNull_injective.eq_iff, dietValue_eq_iff] at hmem
    obtain ⟨hradius, hcategory, hdiet, hafter, hbefore, hq, hpage, hsize, _⟩ := hmem
    exact ⟨hradius, hcategory, hdiet, hafter, hbefore, hq, hpage, hsize⟩
  · intro h
    have hfilters : filters params = filters params' := by
      rw [filters_eq, filters_eq, h.radiusM, h.category, (dietValue_eq_iff _ _).mpr h.diet,
        h.pickupAfter, h.pickupBefore, h.q, h.page, h.pageSize]
    rw [canonicalText, canonicalText, hfilters]

variable {sha1Hex : String → String}

/-- One key comes from one code and one digest. -/
theorem key_eq_iff : buildDiscoveryOffersCacheKey sha1Hex params =
      buildDiscoveryOffersCacheKey sha1Hex params' ↔
    encodeGeohash params.lat params.lng GEOHASH_PRECISION =
        encodeGeohash params'.lat params'.lng GEOHASH_PRECISION ∧
      sha1Hex (canonicalText params) = sha1Hex (canonicalText params') := by
  constructor
  · intro h
    have hgeohash := encodeGeohash_of_key h
    refine ⟨hgeohash, ?_⟩
    have hlist := congrArg String.toList h
    simp only [buildDiscoveryOffersCacheKey, hgeohash, String.toList_append, List.append_assoc,
      List.append_cancel_left_eq] at hlist
    exact String.toList_inj.mp hlist
  · rintro ⟨hgeohash, hdigest⟩
    unfold canonicalText at hdigest
    simp only [buildDiscoveryOffersCacheKey, hgeohash, hdigest]

/-- A key says the cell and the filters, where the digest says the text. -/
theorem agree_of_key (hlat : latitudes.Contains params.lat) (hlng : longitudes.Contains params.lng)
    (hlat' : latitudes.Contains params'.lat) (hlng' : longitudes.Contains params'.lng)
    (hdigest : sha1Hex (canonicalText params) = sha1Hex (canonicalText params') →
      canonicalText params = canonicalText params')
    (hkey : buildDiscoveryOffersCacheKey sha1Hex params =
      buildDiscoveryOffersCacheKey sha1Hex params') :
    SameCell GEOHASH_PRECISION params.lat params.lng params'.lat params'.lng ∧
      SameFilters params params' := by
  obtain ⟨hcell, htexts⟩ := key_eq_iff.mp hkey
  exact ⟨(encodeGeohash_eq_iff hlat hlng hlat' hlng').mp hcell,
    canonicalText_eq_iff.mp (hdigest htexts)⟩

/-- Two searches whose texts have different digests when they are different
share a cache key exactly when their points are in one cell and they filter for
the same, in whatever order the diet flags were given. -/
theorem same_key_iff (sha1Hex : String → String) (params params' : DiscoveryOffersCacheParams)
    (hlat : latitudes.Contains params.lat) (hlng : longitudes.Contains params.lng)
    (hlat' : latitudes.Contains params'.lat) (hlng' : longitudes.Contains params'.lng)
    (hdigest : sha1Hex (canonicalText params) = sha1Hex (canonicalText params') →
      canonicalText params = canonicalText params') :
    buildDiscoveryOffersCacheKey sha1Hex params = buildDiscoveryOffersCacheKey sha1Hex params' ↔
      SameCell GEOHASH_PRECISION params.lat params.lng params'.lat params'.lng ∧
        SameFilters params params' := by
  refine ⟨agree_of_key hlat hlng hlat' hlng' hdigest, fun ⟨hcell, hfilters⟩ => ?_⟩
  refine key_eq_iff.mpr ⟨(encodeGeohash_eq_iff hlat hlng hlat' hlng').mpr hcell, ?_⟩
  rw [canonicalText_eq_iff.mpr hfilters]

/-- A search near a street corner. -/
def cornerSearch (lat : ℚ) (diet : List String) : DiscoveryOffersCacheParams where
  lat := lat
  lng := 290304/10000
  radiusM := 3000
  category := some "BAKERY"
  diet := some diet
  pickupAfter := none
  pickupBefore := none
  q := some "ekmek"
  page := 1
  pageSize := 20

theorem same_key_iff_corner :
    SameCell GEOHASH_PRECISION (409909/10000) (290304/10000) (409910/10000) (290304/10000) ∧
      SameFilters (cornerSearch (409909/10000) ["VEGAN", "VEGETARIAN"])
        (cornerSearch (409910/10000) ["VEGETARIAN", "VEGAN"]) :=
  (same_key_iff id (cornerSearch (409909/10000) ["VEGAN", "VEGETARIAN"])
    (cornerSearch (409910/10000) ["VEGETARIAN", "VEGAN"])
    (by norm_num [cornerSearch, latitudes, Extent.Contains])
    (by norm_num [cornerSearch, longitudes, Extent.Contains])
    (by norm_num [cornerSearch, latitudes, Extent.Contains])
    (by norm_num [cornerSearch, longitudes, Extent.Contains]) fun h => h).mp (by decide +kernel)

end Filters

end Kurtar.CacheKeys

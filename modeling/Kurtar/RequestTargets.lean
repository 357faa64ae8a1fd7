import Mathlib.Data.List.TakeWhile
import Kurtar.PathUtils

/-!
# Requests reach their route

A path that was built from a route's template is read back by that route, with
the parameters as they were, unless one of them is empty or made of dots; and a
query is read back as the pairs that were written.
-/

namespace Kurtar.RequestTargets

open PercentEncoding PathUtils

section Routes

/-- The segment as it stands in a template. -/
def templateOf : RouteSegment → List Char
  | .literal text => text.toList
  | .parameter name => '{' :: (name.toList ++ ['}'])

/-- A fixed segment says where it is and nothing else, and a name can be found. -/
def Plain : RouteSegment → Prop
  | .literal text => text.toList ≠ [] ∧ isSingleDot text.toList = false ∧
      isDoubleDot text.toList = false ∧ ∀ c ∈ text.toList, c ∉ ['/', '{', '?', '#']
  | .parameter name => name ≠ "" ∧ '}' ∉ name.toList

/-- The route of a handler. -/
structure Route where
  segments : List RouteSegment
  nonempty : segments ≠ []
  plain : ∀ segment ∈ segments, Plain segment

def Route.template (route : Route) : String :=
  String.ofList ('/' :: ['/'].intercalate (route.segments.map templateOf))

def nameOf? : RouteSegment → Option String
  | .literal _ => none
  | .parameter name => some name

def Route.names (route : Route) : List String := route.segments.filterMap nameOf?

end Routes

section Building

variable {value : String → Except String (List Char)} {segment : RouteSegment}
  {segments : List RouteSegment} {rest : List Char}

/-- What stands for a segment in a path. -/
def filled (value : String → Except String (List Char)) : RouteSegment → Except String (List Char)
  | .literal text => .ok text.toList
  | .parameter name => value name

theorem replace_literal {text : List Char} (h : '{' ∉ text) :
    replace value none (text ++ rest) = (replace value none rest).map (text ++ ·) := by
  induction text with
  | nil =>
    rw [List.nil_append]
    cases replace value none rest <;> rfl
  | cons c text ih =>
    have hc : c ≠ '{' := fun hc => h (hc ▸ List.mem_cons_self)
    have hrest := ih fun hmem => h (List.mem_cons_of_mem c hmem)
    rw [List.cons_append, replace, if_neg hc, hrest]
    cases replace value none rest <;> rfl

theorem replace_key {name : List Char} (h : '}' ∉ name) (key : List Char) :
    replace value (some key) (name ++ rest) = replace value (some (key ++ name)) rest := by
  induction name generalizing key with
  | nil => rw [List.nil_append, List.append_nil]
  | cons c name ih =>
    have hc : c ≠ '}' := fun hc => h (hc ▸ List.mem_cons_self)
    rw [List.cons_append, replace, if_neg hc, ih (fun hmem => h (List.mem_cons_of_mem c hmem)),
      List.append_assoc, List.singleton_append]

/-- A segment is replaced by what stands for it. -/
theorem replace_segment (h : Plain segment) :
    replace value none (templateOf segment ++ rest) =
      (filled value segment).bind fun text => (replace value none rest).map (text ++ ·) := by
  cases segment with
  | literal text => exact replace_literal fun hmem => h.2.2.2 _ hmem (by decide)
  | parameter name =>
    have hne : name.toList ≠ [] := fun hnil => h.1 (String.toList_eq_nil_iff.mp hnil)
    rw [templateOf, List.cons_append, replace, if_pos rfl, List.append_assoc, replace_key h.2,
      List.nil_append, List.singleton_append, replace, if_pos rfl, if_neg hne, String.ofList_toList]
    change _ = (value name).bind _
    cases value name <;> rfl

theorem replace_segments {next : RouteSegment} (h : Plain segment) :
    replace value none (['/'].intercalate ((segment :: next :: segments).map templateOf)) =
      (filled value segment).bind fun text =>
        ((replace value none (['/'].intercalate ((next :: segments).map templateOf))).map
          (['/'] ++ ·)).map (text ++ ·) := by
  rw [List.map_cons, List.map_cons, List.intercalate_cons_cons, List.append_assoc, ← List.map_cons,
    replace_segment h, replace_literal (by decide)]

/-- A path is built segment by segment. -/
theorem replace_filled {text : RouteSegment → List Char} (hne : segments ≠ [])
    (h : ∀ segment ∈ segments, Plain segment)
    (htext : ∀ segment ∈ segments, filled value segment = .ok (text segment)) :
    replace value none (['/'].intercalate (segments.map templateOf)) =
      .ok (['/'].intercalate (segments.map text)) := by
  induction segments with
  | nil => exact absurd rfl hne
  | cons segment segments ih =>
    have hplain := h segment List.mem_cons_self
    have hsegment := htext segment List.mem_cons_self
    cases segments with
    | nil =>
      have hone := @replace_segment value segment [] hplain
      rw [List.append_nil, hsegment] at hone
      rw [List.map_cons, List.map_nil, List.intercalate_singleton, hone, List.map_cons,
        List.map_nil, List.intercalate_singleton]
      exact congrArg Except.ok (List.append_nil _)
    | cons next segments =>
      have hrest := ih (List.cons_ne_nil _ _) (fun s hs => h s (List.mem_cons_of_mem _ hs))
        fun s hs => htext s (List.mem_cons_of_mem _ hs)
      rw [replace_segments hplain, hsegment, hrest]
      simp only [List.map_cons, List.intercalate_cons_cons, List.append_assoc]
      rfl

/-- The first placeholder that cannot be filled fails the path. -/
theorem replace_failed {name e : String} (hne : segments ≠ [])
    (h : ∀ segment ∈ segments, Plain segment)
    (hfirst : (segments.filterMap nameOf?).find? (fun n => !(value n).toBool) = some name)
    (he : value name = .error e) :
    replace value none (['/'].intercalate (segments.map templateOf)) = .error e := by
  induction segments with
  | nil => exact absurd rfl hne
  | cons segment segments ih =>
    have hplain := h segment List.mem_cons_self
    -- either this segment is the first to fail, or it is filled and a later one is
    have hcase : filled value segment = .error e ∨ (∃ text, filled value segment = .ok text) ∧
        (segments.filterMap nameOf?).find? (fun n => !(value n).toBool) = some name := by
      cases segment with
      | literal text => exact Or.inr ⟨⟨_, rfl⟩, hfirst⟩
      | parameter n =>
        change (n :: segments.filterMap nameOf?).find? _ = some name at hfirst
        cases hn : value n with
        | error e' =>
          rw [List.find?_cons_of_pos (by simp [hn, Except.toBool])] at hfirst
          rw [Option.some.inj hfirst, he] at hn
          cases hn
          rw [← Option.some.inj hfirst] at he
          exact Or.inl he
        | ok text =>
          rw [List.find?_cons_of_neg (by simp [hn, Except.toBool])] at hfirst
          exact Or.inr ⟨⟨text, hn⟩, hfirst⟩
    cases segments with
    | nil =>
      have hone := @replace_segment value segment [] hplain
      rw [List.append_nil] at hone
      rw [List.map_cons, List.map_nil, List.intercalate_singleton, hone]
      rcases hcase with hfail | ⟨-, hlater⟩
      · rw [hfail]
        rfl
      · cases hlater
    | cons next segments =>
      rw [replace_segments hplain]
      rcases hcase with hfail | ⟨⟨text, hok⟩, hlater⟩
      · rw [hfail]
        rfl
      · rw [hok, ih (List.cons_ne_nil _ _) (fun s hs => h s (List.mem_cons_of_mem _ hs)) hlater]
        rfl

end Building

section Receiving

variable {segment : RouteSegment} {segments : List RouteSegment} {kept path : List (List Char)}
  {text : RouteSegment → List Char} {value : String}

/-- A value that cannot be told from no segment at all. -/
def Lost (value : String) : Prop := value = "" ∨ value = "." ∨ value = ".."

theorem notMem_encodeURIComponent {c : Char} (hreserved : unreserved c = false) (hne : c ≠ '%')
    (hdigit : hexValue c = none) (value : String) : c ∉ encodeURIComponent value :=
  notMem_encode hreserved hne hdigit

theorem encodeURIComponent_eq_nil : encodeURIComponent value = [] ↔ value = "" := by
  constructor
  · intro h
    have hnil : value.toList = [] :=
      @encode_injective unreserved _ [] (by decide) h
    exact String.toList_eq_nil_iff.mp hnil
  · rintro rfl
    rfl

/-- All ways to write one or two dots stand for the same bytes. -/
theorem bytesOf_dots {segment : List Char} (h : segment ∈ dots) :
    bytesOf segment = bytesOf ['.'] := by
  have hall : ∀ s ∈ dots, bytesOf s = bytesOf ['.'] := by decide
  exact hall segment h

theorem bytesOf_doubleDots {segment : List Char}
    (h : segment ∈ dots.flatMap fun a => dots.map fun b => a ++ b) :
    bytesOf segment = bytesOf ['.', '.'] := by
  have hall : ∀ s ∈ dots.flatMap fun a => dots.map fun b => a ++ b,
      bytesOf s = bytesOf ['.', '.'] := by decide
  exact hall segment h

theorem isSingleDot_encodeURIComponent :
    isSingleDot (encodeURIComponent value) = true ↔ value = "." := by
  unfold isSingleDot
  rw [decide_eq_true_eq]
  constructor
  · intro h
    have hbytes := bytesOf_dots h
    have hself : encode unreserved ['.'] = ['.'] := by decide
    rw [← hself] at hbytes
    have htext := @eq_of_bytesOf_encode unreserved _ _ (by decide) hbytes
    exact String.ext_iff.mpr htext
  · rintro rfl
    decide

theorem isDoubleDot_encodeURIComponent :
    isDoubleDot (encodeURIComponent value) = true ↔ value = ".." := by
  unfold isDoubleDot
  rw [decide_eq_true_eq]
  constructor
  · intro h
    have hbytes := bytesOf_doubleDots h
    have hself : encode unreserved ['.', '.'] = ['.', '.'] := by decide
    rw [← hself] at hbytes
    have htext := @eq_of_bytesOf_encode unreserved _ _ (by decide) hbytes
    exact String.ext_iff.mpr htext
  · rintro rfl
    decide

/-- A segment that is there whatever the others are. -/
def solid (segment : List Char) : Bool :=
  decide (segment ≠ []) && !isSingleDot segment && !isDoubleDot segment

/-- Without dots there is nothing to resolve. -/
theorem resolve_of_solid (h : ∀ segment ∈ path, solid segment = true) :
    resolve kept path = kept ++ path := by
  induction path generalizing kept with
  | nil => exact (List.append_nil kept).symm
  | cons segment path ih =>
    have hsolid := h segment List.mem_cons_self
    simp only [solid, Bool.and_eq_true, Bool.not_eq_true'] at hsolid
    rw [resolve]
    simp only [hsolid.1.2, hsolid.2, Bool.false_eq_true, if_false]
    rw [ih fun s hs => h s (List.mem_cons_of_mem _ hs), List.append_assoc, List.singleton_append]

/-- No segment comes from nowhere. -/
theorem countP_resolve_le :
    (resolve kept path).countP (· ≠ []) ≤ kept.countP (· ≠ [])+path.countP solid := by
  induction path generalizing kept with
  | nil => exact Nat.le_add_right _ _
  | cons segment path ih =>
    have hdropped : (kept.dropLast).countP (· ≠ []) ≤ kept.countP (· ≠ []) :=
      (List.dropLast_sublist kept).countP_le
    have hend : (if path = [] then [[]] else [] : List (List Char)).countP (· ≠ []) = 0 := by
      split_ifs <;> rfl
    rw [resolve]
    refine ih.trans ?_
    rw [List.countP_cons]
    cases hdouble : isDoubleDot segment with
    | true =>
      simp only [if_true, List.countP_append, hend]
      omega
    | false =>
      cases hsingle : isSingleDot segment with
      | true =>
        simp only [Bool.false_eq_true, if_false, if_true, List.countP_append, hend]
        omega
      | false =>
        have hsolid : solid segment = decide (segment ≠ []) := by simp [solid, hdouble, hsingle]
        simp only [Bool.false_eq_true, if_false, List.countP_append, List.countP_singleton, hsolid]
        omega

/-- A route reads as many segments as it has, none of them empty. -/
theorem countP_of_readSegments {read : List (String × List Char)}
    (h : ∀ segment ∈ segments, Plain segment) (hread : readSegments segments path = some read) :
    path.countP (· ≠ []) = segments.length := by
  induction segments generalizing path read with
  | nil =>
    cases path with
    | nil => rfl
    | cons s path => cases hread
  | cons segment segments ih =>
    have hplain := h segment List.mem_cons_self
    cases path with
    | nil => cases segment <;> cases hread
    | cons s path =>
      have hs : s ≠ [] ∧ ∃ read, readSegments segments path = some read := by
        cases segment with
        | literal text =>
          rw [readSegments] at hread
          split_ifs at hread with hsame
          exact ⟨hsame ▸ hplain.1, read, hread⟩
        | parameter name =>
          rw [readSegments] at hread
          split_ifs at hread with hne
          cases hdecode : decode s with
          | none => simp [hdecode] at hread
          | some value =>
            simp only [hdecode] at hread
            obtain ⟨later, hlater, -⟩ := Option.map_eq_some_iff.mp hread
            exact ⟨hne, later, hlater⟩
      obtain ⟨hne, later, hlater⟩ := hs
      rw [List.countP_cons_of_pos (by simpa using hne), ih (fun s hs => h s (List.mem_cons_of_mem _ hs)) hlater,
        List.length_cons]

/-- The segments of a path with these values. -/
def segmentText (values : String → String) : RouteSegment → List Char
  | .literal text => text.toList
  | .parameter name => encodeURIComponent (values name)

theorem solid_segmentText {values : String → String} (h : Plain segment)
    (hvalue : ∀ name ∈ nameOf? segment, ¬ Lost (values name)) :
    solid (segmentText values segment) = true := by
  cases segment with
  | literal text =>
    obtain ⟨hne, hsingle, hdouble, -⟩ := h
    simp [solid, segmentText, hne, hsingle, hdouble]
  | parameter name =>
    have hfound := hvalue name rfl
    unfold Lost at hfound
    push Not at hfound
    obtain ⟨hne, hsingle, hdouble⟩ := hfound
    have hnil := mt encodeURIComponent_eq_nil.mp hne
    have hone := mt isSingleDot_encodeURIComponent.mp hsingle
    have htwo := mt isDoubleDot_encodeURIComponent.mp hdouble
    simp [solid, segmentText, hnil, hone, htwo]

/-- The parameter of a segment that is lost makes the segment so. -/
theorem not_solid_segmentText {values : String → String} {name : String}
    (h : Lost (values name)) : solid (segmentText values (.parameter name)) = false := by
  unfold solid segmentText
  rcases h with hvalue | hvalue | hvalue
  · simp [encodeURIComponent_eq_nil.mpr hvalue]
  · simp [isSingleDot_encodeURIComponent.mpr hvalue]
  · simp [isDoubleDot_encodeURIComponent.mpr hvalue]

/-- A route reads the values that its path was built with. -/
theorem readSegments_segmentText {values : String → String}
    (h : ∀ name ∈ segments.filterMap nameOf?, values name ≠ "") :
    readSegments segments (segments.map (segmentText values)) =
      some ((segments.filterMap nameOf?).map fun name => (name, (values name).toList)) := by
  induction segments with
  | nil => rfl
  | cons segment segments ih =>
    cases segment with
    | literal text =>
      rw [List.map_cons, segmentText, readSegments, if_pos rfl]
      exact ih h
    | parameter name =>
      have hnames : (RouteSegment.parameter name :: segments).filterMap nameOf? =
          name :: segments.filterMap nameOf? := rfl
      rw [hnames] at h ⊢
      have hne := mt encodeURIComponent_eq_nil.mp (h name List.mem_cons_self)
      have hread : decode (encodeURIComponent (values name)) = some (values name).toList :=
        decode_encode (by decide) _
      rw [List.map_cons, segmentText, readSegments, if_neg hne]
      simp only [hread]
      rw [ih fun n hn => h n (List.mem_cons_of_mem name hn)]
      rfl

/-- No character of a segment separates. -/
theorem notMem_segmentText {values : String → String} {c : Char} (h : Plain segment)
    (hc : c = '/' ∨ c = '?' ∨ c = '#') : c ∉ segmentText values segment := by
  cases segment with
  | literal text =>
    intro hmem
    refine h.2.2.2 c hmem ?_
    rcases hc with rfl | rfl | rfl <;> decide
  | parameter name =>
    rcases hc with rfl | rfl | rfl <;>
      exact notMem_encodeURIComponent (by decide) (by decide) (by decide) _

end Receiving

section Paths

variable {route : Route} {values : String → String} {c : Char}

/-- The path with these values. -/
def pathOf (route : Route) (values : String → String) : List Char :=
  '/' :: ['/'].intercalate (route.segments.map (segmentText values))

theorem splitOn_pathOf (route : Route) (values : String → String) :
    (['/'].intercalate (route.segments.map (segmentText values))).splitOn '/' =
      route.segments.map (segmentText values) := by
  refine List.splitOn_intercalate '/' ?_ ?_
  · intro text htext
    obtain ⟨segment, hsegment, rfl⟩ := List.mem_map.mp htext
    exact notMem_segmentText (route.plain segment hsegment) (Or.inl rfl)
  · simpa using route.nonempty

theorem mem_intercalate {sep : List Char} {texts : List (List Char)}
    (h : c ∈ sep.intercalate texts) : c ∈ sep ∨ ∃ text ∈ texts, c ∈ text := by
  induction texts with
  | nil => simp at h
  | cons text texts ih =>
    cases texts with
    | nil =>
      rw [List.intercalate_singleton] at h
      exact Or.inr ⟨text, List.mem_cons_self, h⟩
    | cons next texts =>
      rw [List.intercalate_cons_cons, List.mem_append, List.mem_append] at h
      rcases h with (h | h) | h
      · exact Or.inr ⟨text, List.mem_cons_self, h⟩
      · exact Or.inl h
      · rcases ih h with h | ⟨t, ht, hc⟩
        · exact Or.inl h
        · exact Or.inr ⟨t, List.mem_cons_of_mem _ ht, hc⟩

/-- A path has no query and no fragment in it. -/
theorem notMem_pathOf (hc : c = '?' ∨ c = '#') : c ∉ pathOf route values := by
  intro h
  have hne : c ≠ '/' := by rcases hc with rfl | rfl <;> decide
  rcases List.mem_cons.mp h with rfl | h
  · exact hne rfl
  · rcases mem_intercalate h with h | ⟨text, htext, h⟩
    · exact hne (List.mem_singleton.mp h)
    · obtain ⟨segment, hsegment, rfl⟩ := List.mem_map.mp htext
      exact notMem_segmentText (route.plain segment hsegment) (Or.inr hc) h

theorem mem_names {name : String} : name ∈ route.names ↔ .parameter name ∈ route.segments := by
  unfold Route.names
  rw [List.mem_filterMap]
  constructor
  · rintro ⟨segment, hsegment, hname⟩
    cases segment with
    | literal text => cases hname
    | parameter n =>
      cases hname
      exact hsegment
  · exact fun h => ⟨_, h, rfl⟩

/-- The route reads its path exactly when no value is lost. -/
theorem receive_pathOf :
    receive route.segments (pathOf route values) =
        some (route.names.map fun name => (name, (values name).toList)) ↔
      ∀ name ∈ route.names, ¬ Lost (values name) := by
  rw [pathOf, receive, splitOn_pathOf]
  constructor
  · intro hread name hname hlost
    have hcount := countP_of_readSegments route.plain hread
    have hle := @countP_resolve_le [] (route.segments.map (segmentText values))
    rw [hcount, List.countP_nil, Nat.zero_add] at hle
    have hall : (route.segments.map (segmentText values)).countP solid =
        (route.segments.map (segmentText values)).length := by
      refine le_antisymm List.countP_le_length ?_
      rwa [List.length_map]
    have hsolid := List.countP_eq_length.mp hall _
      (List.mem_map_of_mem (f := segmentText values) (mem_names.mp hname))
    rw [not_solid_segmentText hlost] at hsolid
    cases hsolid
  · intro h
    rw [resolve_of_solid, List.nil_append]
    · refine readSegments_segmentText fun name hname => ?_
      exact fun hempty => h name hname (Or.inl hempty)
    · intro text htext
      obtain ⟨segment, hsegment, rfl⟩ := List.mem_map.mp htext
      refine solid_segmentText (route.plain segment hsegment) fun name hname => ?_
      exact h name (List.mem_filterMap.mpr ⟨segment, hsegment, hname⟩)

end Paths

section Queries

variable {text : String} {c : Char} {pair : String × String} {pairs : List (String × String)}

/-- The characters that a form never leaves as they are. -/
theorem notMem_formEncode (hc : c = '&' ∨ c = '=' ∨ c = '#' ∨ c = '?') : c ∉ formEncode text := by
  intro h
  obtain ⟨x, hx, hxc⟩ := List.mem_map.mp h
  split_ifs at hxc with hspace
  · rcases hc with rfl | rfl | rfl | rfl <;> cases hxc
  · rw [hxc] at hx
    rcases hc with rfl | rfl | rfl | rfl <;>
      exact notMem_encode (by decide) (by decide) (by decide) hx

theorem formDecode_formEncode (text : String) : formDecode (formEncode text) = some text.toList := by
  have hplus : '+' ∉ encode formKept text.toList :=
    notMem_encode (by decide) (by decide) (by decide)
  have hback : (formEncode text).map (fun c => if c = '+' then ' ' else c) =
      encode formKept text.toList := by
    rw [formEncode, List.map_map]
    refine (List.map_congr_left fun x hx => ?_).trans (List.map_id _)
    have hne : x ≠ '+' := fun h => hplus (h ▸ hx)
    by_cases hspace : x = ' '
    · simp [hspace]
    · simp [hspace, hne]
  rw [formDecode, hback]
  exact decode_encode (by decide) _

/-- A pair as it is written. -/
def written (pair : String × String) : List Char := formEncode pair.1 ++ '=' :: formEncode pair.2

theorem notMem_written (hc : c = '&' ∨ c = '#' ∨ c = '?') : c ∉ written pair := by
  intro h
  have hother : c = '&' ∨ c = '=' ∨ c = '#' ∨ c = '?' := by tauto
  rcases List.mem_append.mp h with h | h
  · exact notMem_formEncode hother h
  · rcases List.mem_cons.mp h with rfl | h
    · rcases hc with hc | hc | hc <;> cases hc
    · exact notMem_formEncode hother h

theorem parsePair_written (pair : String × String) :
    parsePair (written pair) = some (pair.1.toList, pair.2.toList) := by
  have hname : ∀ x ∈ formEncode pair.1, decide (x ≠ '=') = true := by
    intro x hx
    refine decide_eq_true fun h => ?_
    rw [h] at hx
    exact notMem_formEncode (Or.inr (Or.inl rfl)) hx
  have htake : (written pair).takeWhile (· ≠ '=') = formEncode pair.1 := by
    rw [written, List.takeWhile_append_of_pos hname, List.takeWhile_cons_of_neg (by decide),
      List.append_nil]
  have hdrop : ((written pair).dropWhile (· ≠ '=')).drop 1 = formEncode pair.2 := by
    rw [written, List.dropWhile_append_of_pos hname, List.dropWhile_cons_of_neg (by decide)]
    rfl
  rw [parsePair, htake, hdrop, formDecode_formEncode, formDecode_formEncode]

theorem parsePairs_written (pairs : List (String × String)) :
    (pairs.map written).mapM parsePair =
      some (pairs.map fun pair => (pair.1.toList, pair.2.toList)) := by
  induction pairs with
  | nil => rfl
  | cons pair pairs ih =>
    rw [List.map_cons, List.mapM_cons, parsePair_written, ih]
    rfl

theorem serialize_eq_nil : serialize pairs = [] ↔ pairs = [] := by
  cases pairs with
  | nil => simp [serialize]
  | cons pair pairs =>
    cases pairs with
    | nil =>
      rw [serialize, List.map_cons, List.map_nil, List.intercalate_singleton]
      simp
    | cons next pairs =>
      rw [serialize, List.map_cons, List.map_cons, List.intercalate_cons_cons]
      simp

/-- The pairs that were written are read back. -/
theorem parseQuery_serialize (pairs : List (String × String)) :
    parseQuery (serialize pairs) = some (pairs.map fun pair => (pair.1.toList, pair.2.toList)) := by
  cases hpairs : pairs with
  | nil => rfl
  | cons pair rest =>
    have hsplit : (serialize (pair :: rest)).splitOn '&' = (pair :: rest).map written := by
      refine List.splitOn_intercalate '&' ?_ (by simp)
      intro text htext
      obtain ⟨p, -, rfl⟩ := List.mem_map.mp htext
      exact notMem_written (Or.inl rfl)
    have hfull : ((pair :: rest).map written).filter (· ≠ []) = (pair :: rest).map written := by
      refine List.filter_eq_self.mpr fun text htext => ?_
      obtain ⟨p, -, rfl⟩ := List.mem_map.mp htext
      simp [written]
    rw [parseQuery, hsplit, hfull, parsePairs_written]

theorem notMem_serialize (hc : c = '#' ∨ c = '?') : c ∉ serialize pairs := by
  intro h
  rcases mem_intercalate h with h | ⟨text, htext, h⟩
  · rw [List.mem_singleton.mp h] at hc
    rcases hc with hc | hc <;> cases hc
  · obtain ⟨p, -, rfl⟩ := List.mem_map.mp htext
    exact notMem_written (Or.inr hc) h

theorem buildQuery_eq (query : Option (List (String × QueryValue))) :
    buildQuery query =
      if queryPairs (query.getD []) = [] then [] else '?' :: serialize (queryPairs (query.getD [])) := by
  cases query with
  | none => rfl
  | some query =>
    rw [buildQuery]
    by_cases hnone : queryPairs query = []
    · simp [hnone, serialize]
    · have hlength := List.length_pos_iff.mpr (mt serialize_eq_nil.mp hnone)
      simp [hnone, hlength]

end Queries

section Sample

def deleteToken : Route where
  segments := [.literal "api", .literal "me", .literal "push-tokens", .parameter "token"]
  nonempty := by simp
  plain := by
    intro segment hsegment
    simp only [List.mem_cons, List.not_mem_nil, or_false] at hsegment
    rcases hsegment with rfl | rfl | rfl | rfl
    · exact ⟨by decide, by decide, by decide, by simp⟩
    · exact ⟨by decide, by decide, by decide, by simp⟩
    · exact ⟨by decide, by decide, by decide, by simp⟩
    · exact ⟨by decide, by decide⟩

example : buildPath deleteToken.template (some fun _ => some (.string "a b/c")) =
    .ok "/api/me/push-tokens/a%20b%2Fc".toList := by decide +kernel

end Sample

end Kurtar.RequestTargets

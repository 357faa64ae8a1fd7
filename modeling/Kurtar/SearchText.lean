import Kurtar.CharacterReplacement
import Kurtar.DiscoveryPages
import Kurtar.LikePatterns

/-!
# Search texts in titles

The discovery filter escapes the search text, puts it between two wildcards
and binds it to `ILIKE` with a backslash as escape character. The pattern
matches the titles that contain the text, letter case aside.
-/

namespace Kurtar.SearchText

open CharacterReplacement DiscoveryPages IstanbulCalendar LikePatterns Marketplace

/-- The special characters of `ILIKE … ESCAPE '\'`. -/
def likeSyntax : LikeSyntax Char where
  sequence := '%'
  single := '_'
  escape := '\\'
  escape_ne := by decide

/-- `text ILIKE pattern ESCAPE '\'`; none when the database rejects the pattern. -/
def ilike (fold : Char → Char) (text pattern : String) : Option Bool :=
  (tokens likeSyntax pattern.toList).map (tokensMatch fold · text.toList)

/-- The pattern bound for the search text `q`. -/
def searchPattern (q : String) : String := "%" ++ escapeLikePattern q ++ "%"

/-- A database whose `ILIKE` is that of the pattern language. -/
def withILIKE (fold : Char → Char) {Location Meters : Type} [LinearOrder Meters]
    (g : PostGIS Location Meters) : PostGIS Location Meters :=
  { g with ILIKE := fun text pattern => ilike fold text pattern = some true }

/-- What the three replacements make of one character. -/
theorem substitute_special (c : Char) :
    (substitute '\\' "\\\\" c).flatMap (fun x =>
      (substitute '%' "\\%" x).flatMap (substitute '_' "\\_")) = escaped likeSyntax c := by
  by_cases hescape : c = '\\'
  · rw [hescape]
    decide
  · by_cases hsequence : c = '%'
    · rw [hsequence]
      decide
    · by_cases hsingle : c = '_'
      · rw [hsingle]
        decide
      · simp [substitute, escaped, likeSyntax, hescape, hsequence, hsingle]

/-- The three replacements together put a backslash before each special character. -/
theorem toList_escapeLikePattern (q : String) :
    (escapeLikePattern q).toList = q.toList.flatMap (escaped likeSyntax) := by
  have hescape : (q.replace "\\" "\\\\").toList = q.toList.flatMap (substitute '\\' "\\\\") :=
    toList_replace_singleton q '\\' "\\\\"
  have hsequence (s : String) :
      (s.replace "%" "\\%").toList = s.toList.flatMap (substitute '%' "\\%") :=
    toList_replace_singleton s '%' "\\%"
  have hsingle (s : String) :
      (s.replace "_" "\\_").toList = s.toList.flatMap (substitute '_' "\\_") :=
    toList_replace_singleton s '_' "\\_"
  rw [escapeLikePattern, hsingle, hsequence, hescape, List.flatMap_assoc, List.flatMap_assoc]
  exact List.flatMap_congr fun c _ => substitute_special c

/-- The pattern reads as the characters of the text between two wildcards. -/
theorem tokens_searchPattern (q : String) :
    tokens likeSyntax (searchPattern q).toList =
      some (.sequence :: (q.toList.map .literal ++ [.sequence])) := by
  have hlist : (searchPattern q).toList =
      '%' :: (q.toList.flatMap (escaped likeSyntax) ++ ['%']) := by
    rw [searchPattern, String.toList_append, String.toList_append, toList_escapeLikePattern]
    rfl
  rw [hlist]
  exact tokens_search q.toList

theorem ilike_searchPattern (fold : Char → Char) (q title : String) :
    ilike fold title (searchPattern q) = some true ↔ OccursIn fold q.toList title.toList := by
  rw [ilike, tokens_searchPattern, Option.map_some, Option.some.injEq, tokensMatch_search]

/-- The search text is matched literally: the pattern is well formed, each
character of the text stands in it for itself, it matches the titles that
contain the text, and the filter selects exactly these among the offers that
the other conditions select. -/
theorem search_text_literal (fold : Char → Char) (q : String) :
    tokens likeSyntax (searchPattern q).toList =
        some (.sequence :: (q.toList.map .literal ++ [.sequence])) ∧
      (∀ title, ilike fold title (searchPattern q) = some true ↔
        OccursIn fold q.toList title.toList) ∧
      ∀ {Location Meters : Type} [LinearOrder Meters] (g : PostGIS Location Meters)
        (query : DiscoveryOffersQuery) (diet : Option (List DietFlag)) (now : Instant) (d : Offer)
        (s : DiscoveryStore Location) (location : Location) (bt : DiscoveryTemplate) (m : Merchant),
        whereClause (withILIKE fold g) { query with q := some q } diet now d s location bt m ↔
          whereClause (withILIKE fold g) { query with q := none } diet now d s location bt m ∧
            OccursIn fold q.toList bt.title.toList := by
  refine ⟨tokens_searchPattern q, fun title => ilike_searchPattern fold q title, ?_⟩
  intro Location Meters _ g query diet now d s location bt m
  have hempty : OccursIn fold [] bt.title.toList := ⟨[], [], bt.title.toList, rfl, rfl⟩
  have hfilter : (q ≠ "" → (withILIKE fold g).ILIKE bt.title (searchPattern q) = true) ↔
      OccursIn fold q.toList bt.title.toList := by
    by_cases hq : q = ""
    · rw [hq]
      exact ⟨fun _ => hempty, fun _ hne => absurd rfl hne⟩
    · rw [← ilike_searchPattern]
      constructor
      · intro h
        exact of_decide_eq_true (h hq)
      · intro h _
        exact decide_eq_true h
  constructor
  · intro ⟨hlive, hnear, hcategory, hdiet, hafter, hbefore, hq⟩
    exact ⟨⟨hlive, hnear, hcategory, hdiet, hafter, hbefore, nofun⟩, hfilter.mp (hq q rfl)⟩
  · intro ⟨⟨hlive, hnear, hcategory, hdiet, hafter, hbefore, _⟩, hoccurs⟩
    refine ⟨hlive, hnear, hcategory, hdiet, hafter, hbefore, fun q' hq' => ?_⟩
    cases hq'
    exact hfilter.mpr hoccurs

end Kurtar.SearchText

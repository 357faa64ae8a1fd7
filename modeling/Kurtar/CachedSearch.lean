import Kurtar.GuardedRuns
import Kurtar.StoreRatings
import Kurtar.DiscoveryPages
import Kurtar.CacheKeys
import Kurtar.ExpiringStores

/-!
# The cached discovery search

A search looks its key up in the cache and queries the database when it misses.
Searches of all processes share one cache, which may be out of reach, refuse a
write or forget an entry at any moment; the data changes meanwhile. An answer
is always one that the database gave to a search near by with the same
filters, at that moment or less than the time to live before it was read.
-/

namespace Kurtar.CachedSearch

open KeyedTable GuardedRuns IstanbulCalendar Bisection Geohash OffsetPaging DiscoveryPages
open CacheKeys ExpiringStores

def OFFERS_CACHE_TTL_SECONDS : ℤ := 45

def dietFlagName : DietFlag → String
  | .vegetarian => "VEGETARIAN"
  | .vegan => "VEGAN"
  | .glutenFree => "GLUTEN_FREE"
  | .lactoseFree => "LACTOSE_FREE"

def dietFlagValues : List DietFlag := [.vegetarian, .vegan, .glutenFree, .lactoseFree]

def categoryName : BagCategory → String
  | .meal => "MEAL"
  | .bakery => "BAKERY"
  | .grocery => "GROCERY"
  | .produce => "PRODUCE"
  | .other => "OTHER"

/-- The query as it passed validation. -/
structure DiscoveryOffersQueryDto where
  lat : ℚ
  lng : ℚ
  isLatitude : latitudes.Contains lat
  isLongitude : longitudes.Contains lng
  radiusM : ℕ := 3000
  category : Option BagCategory := none
  diet : Option String := none
  pickupAfter : Option String := none
  pickupBefore : Option String := none
  q : Option String := none
  page : ℕ := 1
  pageSize : ℕ := 20
  page_pos : 0 < page := by decide

structure BadRequest where
  errorCode : String
  message : String
  deriving DecidableEq

def dietFlagOf (value : String) : Option DietFlag :=
  dietFlagValues.find? fun flag => dietFlagName flag = value

def dietInvalid (value : String) : BadRequest where
  errorCode := "DISCOVERY_DIET_INVALID"
  message := "\"" ++ value ++ "\" is not a valid diet flag. Valid values: " ++
    ", ".intercalate (dietFlagValues.map dietFlagName) ++ "."

def parseDietFlags (diet : Option String) : Except BadRequest (Option (List DietFlag)) :=
  let parts := (diet.getD "").toList.splitOn ','
  let values := (parts.map fun value => StoreRatings.trim (String.ofList value)).filter (· ≠ "")
  if values = [] then .ok none
  else
    match values.find? fun value => dietFlagOf value = none with
    | some value => .error (dietInvalid value)
    | none => .ok (some (values.filterMap dietFlagOf))

/-- What the cache key is built from. -/
def cacheParams (query : DiscoveryOffersQueryDto) (diet : Option (List DietFlag)) :
    DiscoveryOffersCacheParams where
  lat := query.lat
  lng := query.lng
  radiusM := query.radiusM
  category := query.category.map categoryName
  diet := diet.map (·.map dietFlagName)
  pickupAfter := query.pickupAfter
  pickupBefore := query.pickupBefore
  q := query.q
  page := query.page
  pageSize := query.pageSize

/-- The query at a point, its dates parsed. -/
def queryAt (parseDate : String → Instant) (query : DiscoveryOffersQueryDto) (lat lng : ℚ) :
    DiscoveryOffersQuery where
  lat := lat
  lng := lng
  radiusM := query.radiusM
  category := query.category
  pickupAfter := query.pickupAfter.map parseDate
  pickupBefore := query.pickupBefore.map parseDate
  q := query.q
  page := query.page
  pageSize := query.pageSize

section Searches

variable {Location Meters : Type} [LinearOrder Meters]

/-- A query that the database has answered. -/
structure Execution (Location : Type) where
  query : DiscoveryOffersQueryDto
  diet : Option (List DietFlag)
  db : DiscoveryDb Location
  /-- The time in the query's conditions. -/
  now : Instant
  executedAt : Instant
  result : DiscoveryOffersResult

inductive Source where
  | own
  /-- Read from the cache at this time. -/
  | cached (readAt : Instant)
  deriving DecidableEq

inductive Stage where
  | asked
  | missed
  | querying (now : Instant)
  | queried (result : DiscoveryOffersResult)
  | answered (result : DiscoveryOffersResult) (source : Source)
  | failed
  deriving DecidableEq

/-- A search under way; its diet flags are parsed. -/
structure Search where
  query : DiscoveryOffersQueryDto
  diet : Option (List DietFlag)
  stage : Stage

structure World (Location : Type) where
  db : DiscoveryDb Location
  clock : Instant
  cache : Store String DiscoveryOffersResult Instant
  searches : List Search
  /-- What the database has answered so far. -/
  executions : List (Execution Location)

inductive Action (Location Meters : Type) where
  /-- Somebody writes to the database. -/
  | change (db : DiscoveryDb Location)
  | tick (clock : Instant)
  | searchOffers (query : DiscoveryOffersQueryDto)
  /-- The cache answers, or cannot be reached. -/
  | lookup (search : ℕ) (reached : Bool)
  | begin (search : ℕ)
  /-- The database answers with the matching rows in this order. -/
  | execute (search : ℕ) (order : List (OfferRow Location Meters))
  | fail (search : ℕ)
  /-- The result is written to the cache, or the write is refused. -/
  | save (search : ℕ) (written : Bool)
  | forget (key : String)

variable (g : PostGIS Location Meters) (sha1Hex : String → String) (parseDate : String → Instant)

def Search.key (s : Search) : String :=
  buildDiscoveryOffersCacheKey sha1Hex (cacheParams s.query s.diet)

def Search.toQuery (s : Search) : DiscoveryOffersQuery :=
  queryAt parseDate s.query s.query.lat s.query.lng

def World.setStage (w : World Location) (search : ℕ) (s : Search) (stage : Stage) :
    World Location :=
  { w with searches := w.searches.set search { s with stage } }

/-- `cache.get`: an error and a miss are the same. -/
def lookup (w : World Location) (search : ℕ) (s : Search) (reached : Bool) : World Location :=
  match if reached then w.cache.get (s.key sha1Hex) w.clock else none with
  | some result => w.setStage search s (.answered result (.cached w.clock))
  | none => w.setStage search s .missed

/-- The query runs at one moment; rows that tie come in any order. -/
def execute [DecidableEq Location] (w : World Location) (search : ℕ) (s : Search) (now : Instant)
    (order : List (OfferRow Location Meters)) : Option (World Location) :=
  let query := s.toQuery parseDate
  if order.Perm (matchingRows g w.db query s.diet now) ∧
      order.Pairwise (fun a b => a.distanceM ≤ b.distanceM) then
    let result := queryOffers g query order
    some { w.setStage search s (.queried result) with
      executions := ⟨s.query, s.diet, w.db, now, w.clock, result⟩ :: w.executions }
  else none

/-- `cache.set`: an error is swallowed. -/
def save (w : World Location) (search : ℕ) (s : Search) (result : DiscoveryOffersResult)
    (written : Bool) : World Location :=
  { w.setStage search s (.answered result .own) with
    cache := if written then
      w.cache.put (s.key sha1Hex) result (w.clock+OFFERS_CACHE_TTL_SECONDS*1000) else w.cache }

def step [DecidableEq Location] (w : World Location) :
    Action Location Meters → Option (World Location)
  | .change db => some { w with db }
  | .tick clock => if w.clock ≤ clock then some { w with clock } else none
  | .searchOffers query =>
    match parseDietFlags query.diet with
    | .error _ => some w
    | .ok diet => some { w with searches := w.searches ++ [⟨query, diet, .asked⟩] }
  | .lookup search reached =>
    match w.searches[search]? with
    | some s => if s.stage = .asked then some (lookup sha1Hex w search s reached) else none
    | none => none
  | .begin search =>
    match w.searches[search]? with
    | some s => if s.stage = .missed then some (w.setStage search s (.querying w.clock)) else none
    | none => none
  | .execute search order =>
    match w.searches[search]? with
    | some s =>
      match s.stage with
      | .querying now => execute g parseDate w search s now order
      | _ => none
    | none => none
  | .fail search =>
    match w.searches[search]? with
    | some s =>
      match s.stage with
      | .querying _ => some (w.setStage search s .failed)
      | _ => none
    | none => none
  | .save search written =>
    match w.searches[search]? with
    | some s =>
      match s.stage with
      | .queried result => some (save sha1Hex w search s result written)
      | _ => none
    | none => none
  | .forget key => some { w with cache := w.cache.forget key }

/-- No search has come in and nothing is cached. -/
structure Initial (w : World Location) : Prop where
  cache : w.cache = Store.empty
  searches : w.searches = []
  executions : w.executions = []

end Searches

end Kurtar.CachedSearch

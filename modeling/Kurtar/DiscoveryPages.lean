import Mathlib.Data.Int.ConditionallyCompleteOrder
import Mathlib.Order.ConditionallyCompleteLattice.Basic
import Kurtar.Marketplace
import Kurtar.OffsetPaging

/-!
# Pages of the discovery list

The nearby offers are listed by their distance alone, which all offers of a
store share, and the total is read from the first row of the page. The pages
up to the last one thus hold each offer once, with the total, exactly when no
group of equally distant offers lies across the end of a page and no page past
the end is asked for.
-/

namespace Kurtar.DiscoveryPages

open KeyedTable IstanbulCalendar Marketplace OffsetPaging

inductive BagCategory where
  | meal
  | bakery
  | grocery
  | produce
  | other
deriving DecidableEq

inductive DietFlag where
  | vegetarian
  | vegan
  | glutenFree
  | lactoseFree
deriving DecidableEq

/-- The store columns that the list reads. -/
structure DiscoveryStore (Location : Type) extends Store where
  name : String
  district : String
  location : Option Location
  coverImageUrl : Option String
deriving DecidableEq

structure DiscoveryTemplate extends BagTemplate where
  title : String
  category : BagCategory
  dietFlags : List DietFlag
deriving DecidableEq

structure DiscoveryDb (Location : Type) where
  merchants : Table Merchant.id
  stores : Table fun s : DiscoveryStore Location => s.id
  bagTemplates : Table fun bt : DiscoveryTemplate => bt.id
  offers : Table Offer.id

/-- What the query takes from the database and from the number type. -/
structure PostGIS (Location Meters : Type) [LinearOrder Meters] where
  /-- `ST_SetSRID(ST_MakePoint(lng, lat), 4326)::geography` -/
  point : ℚ → ℚ → Location
  ST_DWithin : Location → Location → ℕ → Bool
  ST_Distance : Location → Location → Meters
  /-- The text matches the pattern, with backslash as its escape. -/
  ILIKE : String → String → Bool
  /-- `Math.round` -/
  round : Meters → ℤ
  round_mono : Monotone round

/-- The validated query; its dates are parsed. -/
structure DiscoveryOffersQuery where
  lat : ℚ
  lng : ℚ
  radiusM : ℕ := 3000
  category : Option BagCategory := none
  pickupAfter : Option Instant := none
  pickupBefore : Option Instant := none
  q : Option String := none
  page : ℕ := 1
  pageSize : ℕ := 20

def escapeLikePattern (value : String) : String :=
  ((value.replace "\\" "\\\\").replace "%" "\\%").replace "_" "\\_"

structure ItemStore where
  id : StoreId
  name : String
  district : String
  distanceM : ℤ
deriving DecidableEq

structure ItemTemplate where
  title : String
  category : BagCategory
  dietFlags : List DietFlag
  priceCents : ℤ
  originalValueCentsMin : ℤ
  originalValueCentsMax : ℤ
deriving DecidableEq

structure DiscoveryOfferItem where
  offerId : OfferId
  store : ItemStore
  template : ItemTemplate
  pickupStartAt : Instant
  pickupEndAt : Instant
  qtyLeft : ℤ
  coverImageUrl : Option String
deriving DecidableEq

structure DiscoveryOffersResult where
  items : List DiscoveryOfferItem
  total : ℕ
  page : ℕ
  pageSize : ℕ
deriving DecidableEq

/-- A joined row with its computed distance. -/
structure OfferRow (Location Meters : Type) where
  offer : Offer
  store : DiscoveryStore Location
  template : DiscoveryTemplate
  distanceM : Meters
deriving DecidableEq

section Query

variable {Location Meters : Type} [LinearOrder Meters] (g : PostGIS Location Meters)

/-- The conditions of the `WHERE` clause; a filter that is not given asks nothing. -/
def whereClause (query : DiscoveryOffersQuery) (diet : Option (List DietFlag)) (now : Instant)
    (d : Offer) (s : DiscoveryStore Location) (location : Location) (bt : DiscoveryTemplate)
    (m : Merchant) : Prop :=
  buildLiveOfferConditions now d s.toStore bt.toBagTemplate m ∧
    g.ST_DWithin location (g.point query.lng query.lat) query.radiusM = true ∧
      (∀ category ∈ query.category, bt.category = category) ∧
        (∀ flags ∈ diet, 0 < flags.length → ∃ flag ∈ flags, flag ∈ bt.dietFlags) ∧
          (∀ t ∈ query.pickupAfter, t ≤ d.pickupStartAt) ∧
            (∀ t ∈ query.pickupBefore, d.pickupEndAt ≤ t) ∧
              ∀ q ∈ query.q, q ≠ "" → g.ILIKE bt.title ("%" ++ escapeLikePattern q ++ "%") = true

instance (query : DiscoveryOffersQuery) (diet : Option (List DietFlag)) (now : Instant) (d : Offer)
    (s : DiscoveryStore Location) (location : Location) (bt : DiscoveryTemplate) (m : Merchant) :
    Decidable (whereClause g query diet now d s location bt m) := by
  unfold whereClause
  infer_instance

/-- The offer joined with its store, template and merchant, if it matches. A
store without a location is near nothing. -/
def selectRow (db : DiscoveryDb Location) (query : DiscoveryOffersQuery)
    (diet : Option (List DietFlag)) (now : Instant) (d : Offer) :
    Option (OfferRow Location Meters) :=
  match db.stores.find? d.storeId, db.bagTemplates.find? d.bagTemplateId with
  | some s, some bt =>
    match db.merchants.find? s.merchantId, s.location with
    | some m, some location =>
      if whereClause g query diet now d s location bt m then
        some ⟨d, s, bt, g.ST_Distance location (g.point query.lng query.lat)⟩
      else none
    | _, _ => none
  | _, _ => none

/-- The rows that the query matches, before they are ordered. -/
def matchingRows (db : DiscoveryDb Location) (query : DiscoveryOffersQuery)
    (diet : Option (List DietFlag)) (now : Instant) : List (OfferRow Location Meters) :=
  db.offers.rows.filterMap (selectRow g db query diet now)

def toItem (r : OfferRow Location Meters) : DiscoveryOfferItem where
  offerId := r.offer.id
  store := ⟨r.store.id, r.store.name, r.store.district, g.round r.distanceM⟩
  template := ⟨r.template.title, r.template.category, r.template.dietFlags, r.template.priceCents,
    r.template.originalValueCentsMin, r.template.originalValueCentsMax⟩
  pickupStartAt := r.offer.pickupStartAt
  pickupEndAt := r.offer.pickupEndAt
  qtyLeft := r.offer.qtyTotal-r.offer.qtyReserved
  coverImageUrl := r.store.coverImageUrl

/-- The answer when this execution orders the matching rows so; each row that
is returned carries the count of all of them. -/
def queryOffers (query : DiscoveryOffersQuery) (order : List (OfferRow Location Meters)) :
    DiscoveryOffersResult :=
  let offset := (query.page-1)*query.pageSize
  let rows := ((order.map fun r => (r, order.length)).drop offset).take query.pageSize
  { items := rows.map fun r => toItem g r.1
    total := match rows.head? with
      | some r => r.2
      | none => 0
    page := query.page
    pageSize := query.pageSize }

/-- The answers to requests for the first pages, each of an execution of its own. -/
def requestPages (query : DiscoveryOffersQuery) (n : ℕ)
    (orders : ℕ → List (OfferRow Location Meters)) : List DiscoveryOffersResult :=
  (List.range n).map fun k => queryOffers g { query with page := k+1 } (orders k)

/-- The answers hold each matching offer once, the closest first, and agree on the total. -/
structure Partition (rows : List (OfferRow Location Meters))
    (results : List DiscoveryOffersResult) : Prop where
  once : ((results.flatMap (·.items)).map (·.offerId)).Nodup
  each : ∀ id, id ∈ (results.flatMap (·.items)).map (·.offerId) ↔ ∃ r ∈ rows, r.offer.id = id
  sorted : (results.flatMap (·.items)).Pairwise fun a b => a.store.distanceM ≤ b.store.distanceM
  total : ∀ result ∈ results, result.total = rows.length

section Rows

variable {db : DiscoveryDb Location} {query : DiscoveryOffersQuery}
  {diet : Option (List DietFlag)} {now : Instant}

theorem offer_of_selectRow {d : Offer} {r : OfferRow Location Meters}
    (h : selectRow g db query diet now d = some r) : r.offer = d := by
  unfold selectRow at h
  split at h
  · split at h
    · split_ifs at h
      cases h
      rfl
    · cases h
  · cases h

/-- Each offer is listed in one row at most. -/
theorem matchingRows_nodup (db : DiscoveryDb Location) (query : DiscoveryOffersQuery)
    (diet : Option (List DietFlag)) (now : Instant) :
    ((matchingRows g db query diet now).map (·.offer.id)).Nodup := by
  have hsub : ((matchingRows g db query diet now).map (·.offer.id)).Sublist
      (db.offers.rows.map (·.id)) := by
    rw [matchingRows]
    induction db.offers.rows with
    | nil => exact List.Sublist.refl _
    | cons d offers ih =>
      cases hrow : selectRow g db query diet now d with
      | none =>
        rw [List.filterMap_cons_none hrow, List.map_cons]
        exact ih.cons _
      | some r =>
        rw [List.filterMap_cons_some hrow, List.map_cons, List.map_cons,
          offer_of_selectRow g hrow]
        exact ih.cons_cons _
  exact db.offers.keys_nodup.sublist hsub

end Rows

section Answers

variable {query : DiscoveryOffersQuery} {n : ℕ} {rows order : List (OfferRow Location Meters)}
  {orders : ℕ → List (OfferRow Location Meters)}

theorem items_queryOffers (k : ℕ) : (queryOffers g { query with page := k+1 } order).items =
    (page query.pageSize k order).map (toItem g) := by
  simp only [queryOffers, page, Nat.add_sub_cancel, List.map_take, List.map_drop, List.map_map,
    Function.comp_def]

/-- A page reports the count of its execution, or nothing when it is empty. -/
theorem total_queryOffers (k : ℕ) : (queryOffers g { query with page := k+1 } order).total =
    if page query.pageSize k order = [] then 0 else order.length := by
  have hcounted : ((order.map fun r => (r, order.length)).drop (k*query.pageSize)).take
      query.pageSize = (page query.pageSize k order).map fun r => (r, order.length) := by
    rw [page, List.map_take, List.map_drop]
  simp only [queryOffers, Nat.add_sub_cancel, hcounted]
  cases page query.pageSize k order with
  | nil => rfl
  | cons r rest => rfl

theorem items_requestPages (orders : ℕ → List (OfferRow Location Meters)) :
    (requestPages g query n orders).flatMap (·.items) =
      (pages query.pageSize n orders).map (toItem g) := by
  rw [requestPages, pages, List.flatMap_map, List.map_flatMap]
  exact List.flatMap_congr fun k _ => items_queryOffers g k

theorem ids_requestPages (orders : ℕ → List (OfferRow Location Meters)) :
    ((requestPages g query n orders).flatMap (·.items)).map (·.offerId) =
      (pages query.pageSize n orders).map (·.offer.id) := by
  rw [items_requestPages, List.map_map]
  rfl

/-- All pages report the number of matching rows when none of them is past the end. -/
theorem total_requestPages (hsize : 0 < query.pageSize)
    (h : ∀ k, Ordered (·.distanceM) rows (orders k))
    (hlast : rows = [] ∨ (n-1)*query.pageSize < rows.length) :
    ∀ result ∈ requestPages g query n orders, result.total = rows.length := by
  intro result hresult
  obtain ⟨k, hk, hanswer⟩ := List.mem_map.mp hresult
  have hlength := (h k).perm.length_eq
  rw [← hanswer, total_queryOffers]
  split_ifs with hempty
  · rw [page_eq_nil hsize, hlength] at hempty
    rcases hlast with hnone | hlast
    · rw [hnone]
      rfl
    · have hle : k*query.pageSize ≤ (n-1)*query.pageSize :=
        Nat.mul_le_mul_right _ (Nat.le_sub_one_of_lt (List.mem_range.mp hk))
      omega
  · exact hlength

/-- Ties on one page and no page past the end are enough. -/
theorem partition_of_ties (hsize : 0 < query.pageSize)
    (hnodup : (rows.map (·.offer.id)).Nodup) (hend : rows.length ≤ n*query.pageSize)
    (hties : TiesOnOnePage (·.distanceM) query.pageSize rows)
    (hlast : rows = [] ∨ (n-1)*query.pageSize < rows.length)
    (h : ∀ k, Ordered (·.distanceM) rows (orders k)) :
    Partition rows (requestPages g query n orders) := by
  have hperm := pages_perm hsize (hnodup.of_map _) h hend hties
  constructor
  · rw [ids_requestPages]
    exact (hperm.map _).nodup_iff.mpr hnodup
  · intro id
    rw [ids_requestPages, (hperm.map _).mem_iff, List.mem_map]
  · rw [items_requestPages]
    refine List.pairwise_map.mpr ((pages_sorted h hend).imp ?_)
    exact fun hab => g.round_mono hab
  · exact total_requestPages g hsize h hlast

/-- The answers to requests for pages up to the end hold each matching offer
once, in order, and agree on the total, in every execution, if and only if
equally distant offers are on one page and no page past the end is asked for. -/
theorem pages_partition_iff (db : DiscoveryDb Location) (query : DiscoveryOffersQuery)
    (diet : Option (List DietFlag)) (clock : ℕ → Instant)
    (rows : List (OfferRow Location Meters)) (n : ℕ)
    (hsame : ∀ k, matchingRows g db query diet (clock k) = rows)
    (hsize : 0 < query.pageSize) (hend : rows.length ≤ n*query.pageSize) :
    (∀ orders : ℕ → List (OfferRow Location Meters),
      (∀ k, Ordered (·.distanceM) (matchingRows g db query diet (clock k)) (orders k)) →
        Partition rows (requestPages g query n orders)) ↔
      TiesOnOnePage (·.distanceM) query.pageSize rows ∧
        (rows = [] ∨ (n-1)*query.pageSize < rows.length) := by
  have hnodup : (rows.map (·.offer.id)).Nodup := by
    rw [← hsame 0]
    exact matchingRows_nodup g db query diet (clock 0)
  simp only [hsame]
  constructor
  · intro h
    constructor
    · by_contra hties
      obtain ⟨orders, hordered, hrepeated⟩ := exists_repeated hsize hend hties
      have honce := (h orders hordered).once
      rw [ids_requestPages] at honce
      exact hrepeated (honce.of_map _)
    · by_cases hnone : rows = []
      · exact .inl hnone
      · obtain ⟨order, hordered⟩ := exists_ordered (fun r : OfferRow Location Meters => r.distanceM) rows
        have hpos := List.length_pos_iff.mpr hnone
        have hn : n-1 ∈ List.range n := by
          rw [List.mem_range]
          by_contra hzero
          have hn : n = 0 := by omega
          rw [hn, Nat.zero_mul] at hend
          omega
        have htotal := (h (fun _ => order) fun _ => hordered).total _ (List.mem_map.mpr ⟨n-1, hn, rfl⟩)
        rw [total_queryOffers] at htotal
        split_ifs at htotal with hempty
        · omega
        · rw [page_eq_nil hsize, hordered.perm.length_eq] at hempty
          exact .inr (Nat.lt_of_not_le hempty)
  · intro h orders hordered
    exact partition_of_ties g hsize hnodup hend h.1 h.2 hordered

end Answers

end Query

section Sample

/-- Places along one street. -/
def streetGIS : PostGIS ℤ ℤ where
  point := fun _ lat => lat.num
  ST_DWithin := fun a b radiusM => decide (|a-b| ≤ radiusM)
  ST_Distance := fun a b => |a-b|
  ILIKE := fun text pattern => decide ("%" ++ text.toLower ++ "%" = pattern.toLower)
  round := fun meters => meters
  round_mono := monotone_id

def sampleOffer (id : OfferId) : Offer where
  id := id
  bagTemplateId := 1
  storeId := 1
  offerDate := 0
  qtyTotal := 3
  pickupStartAt := 10*hourMs
  pickupEndAt := 20*hourMs
  status := .published

/-- A store 100 meters away with two live offers. -/
def twoOffers : DiscoveryDb ℤ where
  merchants := Table.empty.insertNew ⟨1, .approved⟩
  stores := Table.empty.insertNew ⟨⟨1, 1, true⟩, "Fırın", "Kadıköy", some 100, none⟩
  bagTemplates := Table.empty.insertNew
    ⟨⟨1, 1, 5000, 10000, 15000, true⟩, "Akşam paketi", .bakery, [.vegetarian]⟩
  offers := Table.insertMany .empty [sampleOffer 1, sampleOffer 2]

def nearby (pageSize : ℕ) : DiscoveryOffersQuery := { lat := 0, lng := 0, pageSize }

def nearbyRows (pageSize : ℕ) : List (OfferRow ℤ ℤ) :=
  matchingRows streetGIS twoOffers (nearby pageSize) none 0

/-- The two offers in either order, by turns. -/
def eitherOrder (k : ℕ) : List (OfferRow ℤ ℤ) :=
  if k = 0 then nearbyRows 1 else (nearbyRows 1).reverse

/-- One offer is on both pages and the other on none, and the page past the end
reports that there are no offers. -/
theorem pages_partition_counterexample :
    (∀ k, Ordered (·.distanceM) (nearbyRows 1) (eitherOrder k)) ∧
      (requestPages streetGIS (nearby 1) 3 eitherOrder).map
          (fun result => (result.items.map (·.offerId), result.total)) =
        [([1], 2), ([1], 2), ([], 0)] ∧
      ¬ Partition (nearbyRows 1) (requestPages streetGIS (nearby 1) 3 eitherOrder) := by
  have hpages : (requestPages streetGIS (nearby 1) 3 eitherOrder).map
      (fun result => (result.items.map (·.offerId), result.total)) =
        [([1], 2), ([1], 2), ([], 0)] := by decide +kernel
  refine ⟨?_, hpages, ?_⟩
  · intro k
    unfold eitherOrder
    split_ifs
    · exact ⟨List.Perm.refl _, by decide +kernel⟩
    · exact ⟨List.reverse_perm _, by decide +kernel⟩
  · intro h
    exact absurd h.once (by decide +kernel)

/-- A page of two lists both offers once, whichever comes first. -/
theorem pages_partition_iff_onePage :
    TiesOnOnePage (·.distanceM) 2 (nearbyRows 2) ∧
      Partition (nearbyRows 2)
        (requestPages streetGIS (nearby 2) 1 fun _ => (nearbyRows 2).reverse) := by
  have hties : TiesOnOnePage (·.distanceM) (nearby 2).pageSize (nearbyRows 2) := by decide +kernel
  have hpages := (pages_partition_iff streetGIS twoOffers (nearby 2) none (fun _ => 0) (nearbyRows 2)
    1 (fun _ => rfl) (by decide) (by decide +kernel)).mpr ⟨hties, .inr (by decide +kernel)⟩
  refine ⟨hties, hpages _ ?_⟩
  exact fun _ => ⟨List.reverse_perm _, by decide +kernel⟩

end Sample

end Kurtar.DiscoveryPages

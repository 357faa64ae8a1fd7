import Mathlib.Data.Rat.Floor
import Mathlib.Order.Bounds.Basic
import Kurtar.IstanbulCalendar
import Kurtar.KeyedGroups

/-!
# The street list

The discovery screen lists live offers by district, the nearest district
first, and inside a district by distance band and minutes to closing. Offers
that are sold out or closed follow in one section, the last closed first.
-/

namespace Kurtar.StreetList

open IstanbulCalendar KeyedGroups

structure ItemStore where
  id : String
  name : String
  district : String
  distanceM : ℚ

structure ItemTemplate where
  title : String
  category : String
  priceCents : ℤ
  originalValueCentsMin : ℤ
  originalValueCentsMax : ℤ

/-- An offer of the discovery API; the pickup times are written dates. -/
structure DiscoveryOfferItem where
  offerId : String
  store : ItemStore
  template : ItemTemplate
  pickupStartAt : String
  pickupEndAt : String
  qtyLeft : ℤ

/-- An offer under the card's field names. -/
structure VitrinTeklifi where
  teklifId : String
  dukkanId : String
  dukkanAdi : String
  paketAdi : String
  kategori : String
  fiyatKurus : ℤ
  degerMinKurus : ℤ
  degerMaxKurus : ℤ
  alisBaslangic : String
  alisBitis : String
  kalanAdet : ℤ
  mesafeM : ℚ

def teklifeCevir (offer : DiscoveryOfferItem) : VitrinTeklifi where
  teklifId := offer.offerId
  dukkanId := offer.store.id
  dukkanAdi := offer.store.name
  paketAdi := offer.template.title
  kategori := offer.template.category
  fiyatKurus := offer.template.priceCents
  degerMinKurus := offer.template.originalValueCentsMin
  degerMaxKurus := offer.template.originalValueCentsMax
  alisBaslangic := offer.pickupStartAt
  alisBitis := offer.pickupEndAt
  kalanAdet := offer.qtyLeft
  mesafeM := offer.store.distanceM

inductive KepenkDurumu where
  | acik
  | acilmadi
  | tukendi
deriving DecidableEq

/-- Whole minutes from `simdi` to `an`, never negative. -/
def kalanDakika (simdi an : Instant) : ℤ := max 0 ((an-simdi)/60000)

def teklifDurumu (kalanAdet : ℤ) (baslangic bitis simdi : Instant) : KepenkDurumu :=
  if kalanAdet ≤ 0 then .tukendi
  else if simdi ≥ bitis then .tukendi
  else if simdi < baslangic then .acilmadi
  else .acik

def MESAFE_KADEME_M : ℚ := 500

def mesafeKademesi (metre : ℚ) : ℤ := ⌊metre/MESAFE_KADEME_M⌋

/-- A row of the list: a section header or an offer. -/
inductive KesifSatiri where
  | bolge (anahtar bolge : String)
  | kacirdiklarin (anahtar : String)
  | teklif (anahtar : String) (teklif : VitrinTeklifi)

/-- The nearest distance of a district's offers, of which there is at least one. -/
def enYakin (liste : List DiscoveryOfferItem) : ℚ := (liste.map (·.store.distanceM)).min?.getD 0

def teklifSatiri (offer : DiscoveryOfferItem) : KesifSatiri :=
  .teklif offer.offerId (teklifeCevir offer)

section Listing

-- `newDate` reads a written date.
variable (newDate : String → Instant) (simdi : Instant)

def durumOf (offer : DiscoveryOfferItem) : KepenkDurumu :=
  teklifDurumu offer.qtyLeft (newDate offer.pickupStartAt) (newDate offer.pickupEndAt) simdi

/-- Bands first, then minutes to closing. -/
def kademeSonraKapanma (a b : DiscoveryOfferItem) : ℚ :=
  let kademeFarki := mesafeKademesi a.store.distanceM-mesafeKademesi b.store.distanceM
  if kademeFarki ≠ 0 then (kademeFarki : ℚ)
  else ((kalanDakika simdi (newDate a.pickupEndAt)-kalanDakika simdi (newDate b.pickupEndAt) : ℤ) : ℚ)

def enSonKapananOnce (a b : DiscoveryOfferItem) : ℚ :=
  ((newDate b.pickupEndAt-newDate a.pickupEndAt : ℤ) : ℚ)

/-- The rows of one district. -/
def bolgeSatirlari (bolge : String × List DiscoveryOfferItem) : List KesifSatiri :=
  .bolge ("bolum-" ++ bolge.1) bolge.1 ::
    (sortWith (kademeSonraKapanma newDate simdi) bolge.2).map teklifSatiri

def sokakListesi (offers : List DiscoveryOfferItem) : List KesifSatiri :=
  let acik := offers.filter fun offer => durumOf newDate simdi offer ≠ .tukendi
  let tukendi := offers.filter fun offer => durumOf newDate simdi offer = .tukendi
  let bolgeler := groupsOf (·.store.district) acik
  let siraliBolgeler := sortWith (fun a b => enYakin a.2-enYakin b.2) bolgeler
  siraliBolgeler.flatMap (bolgeSatirlari newDate simdi) ++
    if 0 < tukendi.length then
      .kacirdiklarin "bolum-kacirdiklarin" ::
        (sortWith (enSonKapananOnce newDate) tukendi).map teklifSatiri
    else []

end Listing

section Order

variable {newDate : String → Instant} {simdi : Instant} {offers : List DiscoveryOfferItem}

/-- The offer is neither sold out nor closed. -/
def Canli (newDate : String → Instant) (simdi : Instant) (offer : DiscoveryOfferItem) : Prop :=
  0 < offer.qtyLeft ∧ simdi < newDate offer.pickupEndAt

theorem durumOf_eq_tukendi (offer : DiscoveryOfferItem) :
    durumOf newDate simdi offer = .tukendi ↔ ¬ Canli newDate simdi offer := by
  unfold durumOf teklifDurumu Canli
  split_ifs with hqty hend hstart
  · simp only [true_iff]
    intro h
    omega
  · simp only [true_iff]
    intro h
    exact absurd h.2 (not_lt.mpr hend)
  · simp only [false_iff, not_not]
    exact ⟨not_le.mp hqty, not_le.mp hend⟩
  · simp only [false_iff, not_not]
    exact ⟨not_le.mp hqty, not_le.mp hend⟩

/-- The nearest distance is that of an offer, and none is nearer. -/
theorem isLeast_enYakin {liste : List DiscoveryOfferItem} (h : liste ≠ []) :
    IsLeast {d | ∃ o ∈ liste, o.store.distanceM = d} (enYakin liste) := by
  cases hmin : (liste.map (·.store.distanceM)).min? with
  | none =>
    rw [List.min?_eq_none_iff, List.map_eq_nil_iff] at hmin
    exact absurd hmin h
  | some d =>
    rw [enYakin, hmin, Option.getD_some]
    obtain ⟨hmem, hle⟩ := List.min?_eq_some_iff.mp hmin
    refine ⟨List.mem_map.mp hmem, fun e he => ?_⟩
    obtain ⟨o, ho, heq⟩ := he
    rw [← heq]
    exact hle _ (List.mem_map.mpr ⟨o, ho, rfl⟩)

/-- `a` may stand before `b` in a section: in a nearer band, or in the same band
with no more minutes to closing. -/
def OncekiKademe (newDate : String → Instant) (simdi : Instant) (a b : DiscoveryOfferItem) : Prop :=
  mesafeKademesi a.store.distanceM < mesafeKademesi b.store.distanceM ∨
    mesafeKademesi a.store.distanceM = mesafeKademesi b.store.distanceM ∧
      kalanDakika simdi (newDate a.pickupEndAt) ≤ kalanDakika simdi (newDate b.pickupEndAt)

theorem kademeSonraKapanma_nonpos (a b : DiscoveryOfferItem) :
    kademeSonraKapanma newDate simdi a b ≤ 0 ↔ OncekiKademe newDate simdi a b := by
  unfold kademeSonraKapanma OncekiKademe
  simp only
  split_ifs with hband
  · rw [Int.cast_nonpos]
    omega
  · rw [Int.cast_nonpos]
    omega

theorem pairwise_kademe (liste : List DiscoveryOfferItem) :
    (sortWith (kademeSonraKapanma newDate simdi) liste).Pairwise (OncekiKademe newDate simdi) := by
  refine pairwise_sortWith kademeSonraKapanma_nonpos ?_ ?_ liste
  · intro a b
    unfold OncekiKademe
    omega
  · intro a b c
    unfold OncekiKademe
    omega

theorem pairwise_enSonKapanan (liste : List DiscoveryOfferItem) :
    (sortWith (enSonKapananOnce newDate) liste).Pairwise
      fun a b => newDate b.pickupEndAt ≤ newDate a.pickupEndAt := by
  refine pairwise_sortWith (fun a b => ?_) (fun a b => ?_) (fun a b c hab hbc => hbc.trans hab) liste
  · rw [enSonKapananOnce, Int.cast_nonpos]
    exact sub_nonpos
  · exact le_total _ _

/-- A section of the live list: its district and its offers as they are listed. -/
abbrev Bolum := String × List DiscoveryOfferItem

/-- The sections of the live list. -/
def bolumler (newDate : String → Instant) (simdi : Instant) (offers : List DiscoveryOfferItem) :
    List Bolum :=
  (sortWith (fun a b => enYakin a.2-enYakin b.2)
    (groupsOf (·.store.district) (offers.filter fun offer => durumOf newDate simdi offer ≠ .tukendi))).map
      fun g => (g.1, sortWith (kademeSonraKapanma newDate simdi) g.2)

/-- The offers that are sold out or closed, as they are listed. -/
def kacirilanlar (newDate : String → Instant) (simdi : Instant) (offers : List DiscoveryOfferItem) :
    List DiscoveryOfferItem :=
  sortWith (enSonKapananOnce newDate)
    (offers.filter fun offer => durumOf newDate simdi offer = .tukendi)

/-- The nearest offer of `a` is no farther than any of `b`. -/
def DahaYakin (a b : Bolum) : Prop :=
  ∃ nearest ∈ a.2, ∀ other ∈ b.2, nearest.store.distanceM ≤ other.store.distanceM

/-- What the sections and the trailing offers of a list are. -/
structure Listed (newDate : String → Instant) (simdi : Instant) (offers : List DiscoveryOfferItem)
    (sections : List Bolum) (missed : List DiscoveryOfferItem) : Prop where
  districts : (sections.map Prod.fst).Nodup
  covered : ∀ offer ∈ offers, Canli newDate simdi offer → offer.store.district ∈ sections.map Prod.fst
  members : ∀ s ∈ sections, s.2 ≠ [] ∧
    ∀ offer, offer ∈ s.2 ↔ offer ∈ offers ∧ Canli newDate simdi offer ∧ offer.store.district = s.1
  once : (sections.flatMap Prod.snd ++ missed).Perm offers
  nearest : sections.Pairwise DahaYakin
  inside : ∀ s ∈ sections, s.2.Pairwise (OncekiKademe newDate simdi)
  missed_iff : ∀ offer, offer ∈ missed ↔ offer ∈ offers ∧ ¬ Canli newDate simdi offer
  missed_order : missed.Pairwise fun a b => newDate b.pickupEndAt ≤ newDate a.pickupEndAt

theorem sokakListesi_eq : sokakListesi newDate simdi offers =
    (bolumler newDate simdi offers).flatMap
        (fun s => .bolge ("bolum-" ++ s.1) s.1 :: s.2.map teklifSatiri) ++
      if kacirilanlar newDate simdi offers = [] then []
      else .kacirdiklarin "bolum-kacirdiklarin" ::
        (kacirilanlar newDate simdi offers).map teklifSatiri := by
  have hempty : kacirilanlar newDate simdi offers = [] ↔
      ¬ 0 < (offers.filter fun offer => durumOf newDate simdi offer = .tukendi).length := by
    rw [kacirilanlar, ← List.length_eq_zero_iff, (perm_sortWith _).length_eq]
    exact Nat.pos_iff_ne_zero.not_left.symm
  unfold sokakListesi bolumler
  rw [List.flatMap_map]
  simp only [hempty, ite_not]
  rfl

theorem mem_tukendi {offer : DiscoveryOfferItem} :
    offer ∈ offers.filter (fun offer => durumOf newDate simdi offer = .tukendi) ↔
      offer ∈ offers ∧ ¬ Canli newDate simdi offer := by
  rw [List.mem_filter, decide_eq_true_iff, durumOf_eq_tukendi]

theorem mem_acik {offer : DiscoveryOfferItem} :
    offer ∈ offers.filter (fun offer => durumOf newDate simdi offer ≠ .tukendi) ↔
      offer ∈ offers ∧ Canli newDate simdi offer := by
  rw [List.mem_filter, decide_eq_true_iff, ne_eq, durumOf_eq_tukendi, not_not]

/-- Every section is a sorted group of the live offers. -/
theorem group_of_mem_bolumler {s : Bolum} (hs : s ∈ bolumler newDate simdi offers) :
    ∃ g ∈ groupsOf (·.store.district)
        (offers.filter fun offer => durumOf newDate simdi offer ≠ .tukendi),
      s = (g.1, sortWith (kademeSonraKapanma newDate simdi) g.2) := by
  obtain ⟨g, hg, heq⟩ := List.mem_map.mp hs
  exact ⟨g, (perm_sortWith _).mem_iff.mp hg, heq.symm⟩

theorem perm_districts : ((bolumler newDate simdi offers).map Prod.fst).Perm
    ((groupsOf (·.store.district)
      (offers.filter fun offer => durumOf newDate simdi offer ≠ .tukendi)).map Prod.fst) := by
  have hsame : (bolumler newDate simdi offers).map Prod.fst =
      (sortWith (fun a b => enYakin a.2-enYakin b.2) (groupsOf (·.store.district)
        (offers.filter fun offer => durumOf newDate simdi offer ≠ .tukendi))).map Prod.fst := by
    rw [bolumler, List.map_map]
    rfl
  rw [hsame]
  exact (perm_sortWith _).map Prod.fst

theorem mem_section {s : Bolum} (hs : s ∈ bolumler newDate simdi offers) :
    s.2 ≠ [] ∧ ∀ offer, offer ∈ s.2 ↔
      offer ∈ offers ∧ Canli newDate simdi offer ∧ offer.store.district = s.1 := by
  obtain ⟨g, hg, heq⟩ := group_of_mem_bolumler hs
  obtain ⟨hlist, hne⟩ := (groups_groupsOf _).members g hg
  have hperm : s.2.Perm g.2 := by
    rw [heq]
    exact perm_sortWith g.2
  refine ⟨fun hnil => hne ?_, fun offer => ?_⟩
  · rw [hnil] at hperm
    exact hperm.nil_eq.symm
  · rw [hperm.mem_iff, hlist, List.mem_filter, mem_acik, decide_eq_true_iff, heq, and_assoc]

theorem perm_bolumler : ((bolumler newDate simdi offers).flatMap Prod.snd).Perm
    (offers.filter fun offer => durumOf newDate simdi offer ≠ .tukendi) := by
  rw [bolumler, List.flatMap_map]
  have hinside : ∀ groups : List Bolum,
      (groups.flatMap fun g => sortWith (kademeSonraKapanma newDate simdi) g.2).Perm
        (groups.flatMap Prod.snd) := fun groups =>
    List.Perm.flatMap_left groups fun g _ => perm_sortWith g.2
  exact (hinside _).trans (((perm_sortWith _).flatMap_right Prod.snd).trans (perm_groupsOf _))

/-- Groups by nearest distance are sections by nearest offer. -/
theorem dahaYakin_of_enYakin {a b : Bolum} (ha : a.2 ≠ []) (hb : b.2 ≠ [])
    (h : enYakin a.2-enYakin b.2 ≤ 0) :
    DahaYakin (a.1, sortWith (kademeSonraKapanma newDate simdi) a.2)
      (b.1, sortWith (kademeSonraKapanma newDate simdi) b.2) := by
  obtain ⟨nearest, hmem, heq⟩ := (isLeast_enYakin ha).1
  refine ⟨nearest, (perm_sortWith a.2).mem_iff.mpr hmem, fun other hother => ?_⟩
  have hother' : other ∈ b.2 := (perm_sortWith b.2).mem_iff.mp hother
  have hle : enYakin b.2 ≤ other.store.distanceM := (isLeast_enYakin hb).2 ⟨other, hother', rfl⟩
  calc nearest.store.distanceM = enYakin a.2 := heq
    _ ≤ enYakin b.2 := sub_nonpos.mp h
    _ ≤ other.store.distanceM := hle

theorem pairwise_enYakin (groups : List Bolum) :
    (sortWith (fun a b => enYakin a.2-enYakin b.2) groups).Pairwise
      fun a b => enYakin a.2 ≤ enYakin b.2 := by
  refine pairwise_sortWith (fun a b => ?_) (fun a b => ?_) (fun a b c hab hbc => ?_) groups
  · exact sub_nonpos
  · exact le_total _ _
  · exact hab.trans hbc

theorem pairwise_bolumler : (bolumler newDate simdi offers).Pairwise DahaYakin := by
  rw [bolumler, List.pairwise_map]
  refine (pairwise_enYakin _).imp_of_mem fun {a b} ha hb hle => ?_
  have ha' := ((groups_groupsOf _).members a ((perm_sortWith _).mem_iff.mp ha)).2
  have hb' := ((groups_groupsOf _).members b ((perm_sortWith _).mem_iff.mp hb)).2
  exact dahaYakin_of_enYakin ha' hb' (sub_nonpos.mpr hle)

theorem listed_sokakListesi : Listed newDate simdi offers (bolumler newDate simdi offers)
    (kacirilanlar newDate simdi offers) where
  districts := perm_districts.nodup_iff.mpr (groups_groupsOf _).nodup
  covered := fun offer hmem hlive => perm_districts.mem_iff.mpr
    (((groups_groupsOf _).keys _).mpr ⟨offer, mem_acik.mpr ⟨hmem, hlive⟩, rfl⟩)
  members := fun s hs => mem_section hs
  once := by
    have hmissed : (kacirilanlar newDate simdi offers).Perm
        (offers.filter fun offer => durumOf newDate simdi offer = .tukendi) := perm_sortWith _
    have hsplit := List.filter_append_perm (fun offer => durumOf newDate simdi offer ≠ .tukendi) offers
    simp only [ne_eq, decide_not, Bool.not_not] at hsplit
    have hsections : ((bolumler newDate simdi offers).flatMap Prod.snd).Perm
        (offers.filter fun offer => !decide (durumOf newDate simdi offer = .tukendi)) := by
      simpa only [ne_eq, decide_not] using perm_bolumler
    exact (hsections.append hmissed).trans hsplit
  nearest := pairwise_bolumler
  inside := fun s hs => by
    obtain ⟨g, _, heq⟩ := group_of_mem_bolumler hs
    rw [heq]
    exact pairwise_kademe g.2
  missed_iff := fun offer => by
    rw [kacirilanlar, (perm_sortWith _).mem_iff, mem_tukendi]
  missed_order := pairwise_enSonKapanan _

/-- The offer rows of a list, with their keys. -/
def teklifSatirlari (rows : List KesifSatiri) : List (String × VitrinTeklifi) :=
  rows.filterMap fun
    | .teklif anahtar teklif => some (anahtar, teklif)
    | _ => none

theorem teklifSatirlari_append (left right : List KesifSatiri) :
    teklifSatirlari (left ++ right) = teklifSatirlari left ++ teklifSatirlari right :=
  List.filterMap_append

theorem teklifSatirlari_map (liste : List DiscoveryOfferItem) :
    teklifSatirlari (liste.map teklifSatiri) = liste.map fun o => (o.offerId, teklifeCevir o) := by
  induction liste with
  | nil => rfl
  | cons o rest ih =>
    rw [List.map_cons, List.map_cons, ← ih]
    rfl

theorem teklifSatirlari_sections (sections : List Bolum) :
    teklifSatirlari (sections.flatMap
        (fun s => .bolge ("bolum-" ++ s.1) s.1 :: s.2.map teklifSatiri)) =
      (sections.flatMap Prod.snd).map fun o => (o.offerId, teklifeCevir o) := by
  induction sections with
  | nil => rfl
  | cons s rest ih =>
    rw [List.flatMap_cons, List.flatMap_cons, List.map_append, teklifSatirlari_append, ih,
      ← teklifSatirlari_map s.2]
    rfl

/-- The rows are the live sections, each after one header, then the offers that
are sold out or closed after a header of their own; each offer has one row. -/
theorem street_list_in_order (newDate : String → Instant) (simdi : Instant)
    (offers : List DiscoveryOfferItem) :
    (teklifSatirlari (sokakListesi newDate simdi offers)).Perm
        (offers.map fun o => (o.offerId, teklifeCevir o)) ∧
      ∃ sections missed, Listed newDate simdi offers sections missed ∧
        sokakListesi newDate simdi offers =
          sections.flatMap (fun s => .bolge ("bolum-" ++ s.1) s.1 :: s.2.map teklifSatiri) ++
            if missed = [] then []
            else .kacirdiklarin "bolum-kacirdiklarin" :: missed.map teklifSatiri := by
  refine ⟨?_, _, _, listed_sokakListesi, sokakListesi_eq⟩
  have htrailing : teklifSatirlari (if kacirilanlar newDate simdi offers = [] then []
      else .kacirdiklarin "bolum-kacirdiklarin" ::
        (kacirilanlar newDate simdi offers).map teklifSatiri) =
      (kacirilanlar newDate simdi offers).map fun o => (o.offerId, teklifeCevir o) := by
    split_ifs with hempty
    · rw [hempty]
      rfl
    · rw [← teklifSatirlari_map]
      rfl
  rw [sokakListesi_eq, teklifSatirlari_append, teklifSatirlari_sections, htrailing,
    ← List.map_append]
  exact listed_sokakListesi.once.map _

end Order

end Kurtar.StreetList

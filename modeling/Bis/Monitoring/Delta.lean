import Bis.Monitoring.Screening

/-!
What the difference of two screenings says about the providers' hits. A hit is known by
its list, its source list and its name, and its identifier is the hash of these three,
joined by a bar that a source list or a name may contain. So hits that are not the same
may have one identifier, and so do the hits that a provider repeats.
-/

namespace Bis.Monitoring

open Bis.Encoding Bis.Json Bis.Relation Bis.Transition List
open Bis.Pii (jsTrim)

/-- What makes a hit the hit it is; only sanctions are told apart by their source. -/
structure Identity where
  list : MonitoringListKind
  (sourceList matchedName : String)
  deriving DecidableEq

def Identity.parts (identity : Identity) : List String :=
  [identity.list.name, identity.sourceList, identity.matchedName]

/-- The text that is hashed. -/
def Identity.text (identity : Identity) : String := "|".intercalate identity.parts

def MonitoringHit.identity (hit : MonitoringHit) : Identity where
  list := hit.list
  sourceList := if hit.list = .sanctions then hit.sourceList.getD "" else ""
  matchedName := hit.matchedName

section Texts

variable {a b : Identity}

theorem Identity.text_toList (identity : Identity) :
    identity.text.toList = identity.list.name.toList ++
      '|' :: (identity.sourceList.toList ++ '|' :: identity.matchedName.toList) := by
  simp [Identity.text, Identity.parts]

theorem name_without_bar (list : MonitoringListKind) : '|' ∉ list.name.toList := by
  cases list <;> decide

theorem name_injective {list list' : MonitoringListKind} (h : list.name = list'.name) :
    list = list' := by
  cases list <;> cases list' <;> first | rfl | exact absurd h (by decide)

theorem list_of_text (h : a.text = b.text) : a.list = b.list ∧
    a.sourceList.toList ++ '|' :: a.matchedName.toList =
      b.sourceList.toList ++ '|' :: b.matchedName.toList := by
  have htexts := congrArg String.toList h
  rw [a.text_toList, b.text_toList] at htexts
  obtain ⟨hname, hrest⟩ := append_separator_left (name_without_bar a.list) (name_without_bar b.list)
    htexts
  exact ⟨name_injective (String.toList_inj.mp hname), hrest⟩

/-- Without a bar in the source lists the text tells hits apart. -/
theorem eq_of_text (h : a.text = b.text) (ha : '|' ∉ a.sourceList.toList)
    (hb : '|' ∉ b.sourceList.toList) : a = b := by
  obtain ⟨hlist, hrest⟩ := list_of_text h
  obtain ⟨hsource, hname⟩ := append_separator_left ha hb hrest
  cases a with
  | mk list sourceList matchedName =>
    cases b with
    | mk list' sourceList' matchedName' =>
      obtain rfl : list = list' := hlist
      obtain rfl : sourceList = sourceList' := String.toList_inj.mp hsource
      obtain rfl : matchedName = matchedName' := String.toList_inj.mp hname
      rfl

end Texts

/-! ### Differences of keyed lists -/

section Absent

variable {ρ κ ι : Type*} [DecidableEq κ] {id : ρ → κ} {identity : ρ → ι} {key : ι → κ}
  {rows others : List ρ}

/-- The rows whose key another list does not have are the rows that it does not have,
exactly where a shared key is a shared row. -/
theorem absent_iff (hrows : ∀ a ∈ rows, id a = key (identity a))
    (hothers : ∀ b ∈ others, id b = key (identity b)) :
    (∀ i, i ∈ (rows.filter fun a => !others.any fun b => id b == id a).map identity ↔
      i ∈ rows.map identity ∧ i ∉ others.map identity) ↔
    ∀ a ∈ rows, ∀ b ∈ others, id a = id b → identity a ∈ others.map identity := by
  have hfilter : ∀ a, a ∈ (rows.filter fun a => !others.any fun b => id b == id a) ↔
      a ∈ rows ∧ ∀ b ∈ others, id b ≠ id a := by
    intro a
    simp
  constructor
  · intro h a ha b hb hsame
    by_contra hnot
    obtain ⟨a', ha', hidentity⟩ :=
      mem_map.mp ((h (identity a)).mpr ⟨mem_map_of_mem ha, hnot⟩)
    obtain ⟨hmem, hfree⟩ := (hfilter a').mp ha'
    refine hfree b hb ?_
    rw [← hsame, hrows a ha, hrows a' hmem, hidentity]
  · intro h i
    constructor
    · intro hi
      obtain ⟨a, ha, rfl⟩ := mem_map.mp hi
      obtain ⟨hmem, hfree⟩ := (hfilter a).mp ha
      refine ⟨mem_map_of_mem hmem, ?_⟩
      intro hother
      obtain ⟨b, hb, hidentity⟩ := mem_map.mp hother
      refine hfree b hb ?_
      rw [hothers b hb, hrows a hmem, hidentity]
    · rintro ⟨hi, hnot⟩
      obtain ⟨a, ha, rfl⟩ := mem_map.mp hi
      refine mem_map_of_mem ((hfilter a).mpr ⟨ha, ?_⟩)
      intro b hb hsame
      exact hnot (h a ha b hb hsame.symm)

end Absent

/-! ### The hits of a screening -/

namespace Screening

/-- The name that is screened. -/
def name (s : Screening) : String := String.ofList (jsTrim s.subjectName.toList)

variable (sha256Hex : String → String)

/-- The hits that a provider lists, repeated ones included. -/
def listed (s : Screening) (kind : MonitoringListKind) : List MonitoringHit :=
  (s.answer kind).elim [] fun res =>
    match kind with
    | .sanctions => screenSanctions sha256Hex s.name res
    | .pep => pepHits sha256Hex s.name res
    | .watchlist => screenWatchlist sha256Hex s.name res

def providerHits (s : Screening) : List MonitoringHit :=
  s.listSet.flatMap (s.listed sha256Hex)

def identities (s : Screening) : List Identity :=
  (s.providerHits sha256Hex).map MonitoringHit.identity

/-- The hits of a list that go into the snapshot. -/
def found (s : Screening) (kind : MonitoringListKind) : List MonitoringHit :=
  (s.answer kind).elim [] (screenOne sha256Hex kind s.name)

end Screening

section Hits

variable {sha256Hex : String → String} {s : Screening} {snapshot : MonitoringSnapshot}
  {hit : MonitoringHit}

/-- The identifier of a hit is the hash of its identity. -/
structure Proper (sha256Hex : String → String) (kind : MonitoringListKind) (hit : MonitoringHit) :
    Prop where
  list : hit.list = kind
  id : hit.id = hitId sha256Hex hit.identity.parts

theorem proper_plainHit (kind : MonitoringListKind) (matchedName : String)
    {sourceList : Option String} (h : kind = .sanctions → sourceList = none) :
    Proper sha256Hex kind (plainHit sha256Hex kind matchedName sourceList) := by
  refine ⟨rfl, ?_⟩
  cases kind with
  | sanctions =>
    rw [h rfl]
    rfl
  | pep => rfl
  | watchlist => rfl

variable {subjectName : String} {kind : MonitoringListKind} {hits : List MonitoringHit}

theorem proper_screenSanctions {res : Value} (h : hit ∈ screenSanctions sha256Hex subjectName res) :
    Proper sha256Hex .sanctions hit := by
  unfold screenSanctions at h
  dsimp only at h
  split at h
  · obtain rfl := mem_singleton.mp h
    exact proper_plainHit .sanctions subjectName fun _ => rfl
  · obtain ⟨raw, _, rfl⟩ := mem_map.mp h
    exact ⟨rfl, rfl⟩

theorem proper_pepHits {res : Value} (h : hit ∈ pepHits sha256Hex subjectName res) :
    Proper sha256Hex .pep hit := by
  unfold pepHits at h
  rcases mem_append.mp h with hflag | hraw
  · split at hflag
    · obtain rfl := mem_singleton.mp hflag
      exact proper_plainHit .pep subjectName MonitoringListKind.noConfusion
    · cases hflag
  · obtain ⟨raw, _, rfl⟩ := mem_map.mp hraw
    exact ⟨rfl, rfl⟩

theorem mem_screenWatchlist {data : Value} (h : hit ∈ screenWatchlist sha256Hex subjectName data) :
    hit = plainHit sha256Hex .watchlist subjectName (some "efcc_watchlist") := by
  unfold screenWatchlist at h
  split at h
  · exact mem_singleton.mp h
  · cases h

theorem proper_listed (h : hit ∈ s.listed sha256Hex kind) : Proper sha256Hex kind hit := by
  unfold Screening.listed at h
  cases hanswer : s.answer kind with
  | none =>
    rw [hanswer] at h
    cases h
  | some res =>
    rw [hanswer] at h
    cases kind with
    | sanctions => exact proper_screenSanctions h
    | pep => exact proper_pepHits h
    | watchlist =>
      rw [mem_screenWatchlist h]
      exact proper_plainHit .watchlist s.name MonitoringListKind.noConfusion

theorem mem_providerHits : hit ∈ s.providerHits sha256Hex ↔
    hit.list ∈ s.listSet ∧ hit ∈ s.listed sha256Hex hit.list := by
  constructor
  · intro h
    obtain ⟨kind, hkind, hlisted⟩ := mem_flatMap.mp h
    rw [(proper_listed hlisted).list]
    exact ⟨hkind, hlisted⟩
  · rintro ⟨hkind, hlisted⟩
    exact mem_flatMap.mpr ⟨hit.list, hkind, hlisted⟩

theorem id_of_mem (h : hit ∈ s.providerHits sha256Hex) :
    hit.id = hitId sha256Hex hit.identity.parts :=
  (proper_listed (mem_providerHits.mp h).2).id

/-! ### The hits of a snapshot -/

theorem mem_uniqueHits :
    hit ∈ uniqueHits hits ↔ lastOf MonitoringHit.id hit.id hits = some hit := mem_foldl_upsert

theorem exists_uniqueHits (h : hit ∈ hits) : ∃ kept ∈ uniqueHits hits, kept.id = hit.id := by
  cases hlast : lastOf MonitoringHit.id hit.id hits with
  | none => exact (lastOf_eq_none hlast hit h rfl).elim
  | some kept =>
    have hkey := (lastOf_eq_some hlast).2
    exact ⟨kept, mem_uniqueHits.mpr (hkey ▸ hlast), hkey⟩

/-- Only a politically exposed person is kept once. -/
theorem found_eq (h : kind ≠ .pep) : s.found sha256Hex kind = s.listed sha256Hex kind := by
  unfold Screening.found Screening.listed
  cases kind with
  | sanctions => rfl
  | pep => exact (h rfl).elim
  | watchlist => rfl

theorem found_pep : s.found sha256Hex .pep = uniqueHits (s.listed sha256Hex .pep) := by
  unfold Screening.found Screening.listed
  cases s.answer .pep <;> rfl

theorem listed_of_found (h : hit ∈ s.found sha256Hex kind) : hit ∈ s.listed sha256Hex kind := by
  by_cases hkind : kind = .pep
  · subst hkind
    rw [found_pep] at h
    exact (lastOf_eq_some (mem_uniqueHits.mp h)).1
  · rwa [found_eq hkind] at h

theorem screenLists_spec {answer : MonitoringListKind → Option Value} {name : String}
    {kinds : List MonitoringListKind} (h : screenLists sha256Hex answer name kinds = .ok hits) :
    hits = kinds.flatMap fun kind => (answer kind).elim [] (screenOne sha256Hex kind name) := by
  induction kinds generalizing hits with
  | nil =>
    cases h
    rfl
  | cons kind rest ih =>
    unfold screenLists at h
    split at h
    next => cases h
    next res hanswer =>
      obtain ⟨others, hothers, hhits⟩ := except_bind_ok h
      cases hhits
      rw [flatMap_cons, hanswer, ← ih hothers]
      rfl

theorem mem_hits (hrun : runSubjectScreening sha256Hex s = .ok snapshot) :
    hit ∈ snapshot.hits ↔ hit.list ∈ s.listSet ∧ hit ∈ s.found sha256Hex hit.list := by
  unfold runSubjectScreening at hrun
  obtain ⟨name, hname, hrun⟩ := except_bind_ok hrun
  obtain ⟨hits, hhits, hsnapshot⟩ := except_bind_ok hrun
  have hscreened : name = s.name := by
    unfold sanitizeName at hname
    dsimp only at hname
    split at hname
    · cases hname
    · cases hname
      rfl
  subst hscreened
  cases hsnapshot
  rw [mem_mergeSort, screenLists_spec hhits]
  constructor
  · intro h
    obtain ⟨kind, hkind, hfound⟩ := mem_flatMap.mp h
    rw [(proper_listed (listed_of_found hfound)).list]
    exact ⟨mem_eraseDups.mp hkind, hfound⟩
  · rintro ⟨hkind, hfound⟩
    exact mem_flatMap.mpr ⟨hit.list, mem_eraseDups.mpr hkind, hfound⟩

theorem mem_providerHits_of_mem_hits (hrun : runSubjectScreening sha256Hex s = .ok snapshot)
    (h : hit ∈ snapshot.hits) : hit ∈ s.providerHits sha256Hex := by
  obtain ⟨hkind, hfound⟩ := (mem_hits hrun).mp h
  exact mem_providerHits.mpr ⟨hkind, listed_of_found hfound⟩

/-! ### Identifiers and identities -/

/-- The first 128 bits of the hash tell the texts apart. -/
def Collisionless (sha256Hex : String → String) (texts : List String) : Prop :=
  ∀ a ∈ texts, ∀ b ∈ texts,
    (sha256Hex a).toList.take 32 = (sha256Hex b).toList.take 32 → a = b

def Screening.texts (sha256Hex : String → String) (s : Screening) : List String :=
  (s.identities sha256Hex).map Identity.text

theorem hitId_of_text {a b : Identity} (h : a.text = b.text) :
    hitId sha256Hex a.parts = hitId sha256Hex b.parts := by
  unfold Identity.text at h
  unfold hitId
  rw [h]

theorem text_of_hitId {texts : List String} (hsha : Collisionless sha256Hex texts) {a b : Identity}
    (ha : a.text ∈ texts) (hb : b.text ∈ texts)
    (h : hitId sha256Hex a.parts = hitId sha256Hex b.parts) : a.text = b.text :=
  hsha _ ha _ hb (String.ofList_injective h)

theorem identity_mem (h : hit ∈ s.providerHits sha256Hex) :
    hit.identity ∈ s.identities sha256Hex := mem_map_of_mem h

theorem text_mem (h : hit ∈ s.providerHits sha256Hex) : hit.identity.text ∈ s.texts sha256Hex :=
  mem_map_of_mem (identity_mem h)

theorem sourceList_of_ne (h : hit.list ≠ .sanctions) : hit.identity.sourceList = "" :=
  if_neg h

theorem identity_of_text {other : MonitoringHit} (hlist : hit.list ≠ .sanctions)
    (h : hit.identity.text = other.identity.text) : hit.identity = other.identity := by
  have hsame : hit.list = other.list := (list_of_text h).1
  have hother : other.list ≠ .sanctions := hsame ▸ hlist
  apply eq_of_text h
  · rw [sourceList_of_ne hlist]
    decide
  · rw [sourceList_of_ne hother]
    decide

/-- The snapshot has every hit of the providers. -/
theorem mem_identities_iff (hrun : runSubjectScreening sha256Hex s = .ok snapshot)
    (hsha : Collisionless sha256Hex (s.texts sha256Hex)) (i : Identity) :
    i ∈ snapshot.hits.map MonitoringHit.identity ↔ i ∈ s.identities sha256Hex := by
  constructor
  · intro hi
    obtain ⟨hit, hhit, rfl⟩ := mem_map.mp hi
    exact identity_mem (mem_providerHits_of_mem_hits hrun hhit)
  · intro hi
    obtain ⟨hit, hhit, rfl⟩ := mem_map.mp hi
    obtain ⟨hkind, hlisted⟩ := mem_providerHits.mp hhit
    by_cases hpep : hit.list = .pep
    · rw [hpep] at hkind hlisted
      obtain ⟨kept, hkept, hid⟩ := exists_uniqueHits hlisted
      rw [← found_pep] at hkept
      have hlist : kept.list = .pep := (proper_listed (listed_of_found hkept)).list
      have hmem : kept ∈ snapshot.hits := (mem_hits hrun).mpr (by rw [hlist]; exact ⟨hkind, hkept⟩)
      have hprovided := mem_providerHits_of_mem_hits hrun hmem
      rw [id_of_mem hprovided, id_of_mem hhit] at hid
      have htext := text_of_hitId hsha (text_mem hprovided) (text_mem hhit) hid
      rw [← identity_of_text (by rw [hlist]; exact MonitoringListKind.noConfusion) htext]
      exact mem_map_of_mem hmem
    · rw [← found_eq hpep] at hlisted
      exact mem_map_of_mem ((mem_hits hrun).mpr ⟨hkind, hlisted⟩)

/-! ### One snapshot -/

def MonitoringDelta.unchanged : MonitoringDelta := ⟨false, [], [], []⟩

theorem statusChange_eq_none :
    statusChange hits hit = none ↔
      ∀ known, lastOf MonitoringHit.id hit.id hits = some known → known.status = hit.status := by
  unfold statusChange
  cases lastOf MonitoringHit.id hit.id hits with
  | none => simp
  | some known => simp

/-- A snapshot differs from itself where it has a hit in two status bands. -/
theorem diffSnapshots_self_iff :
    diffSnapshots (some snapshot) snapshot = .unchanged ↔
      ∀ a ∈ snapshot.hits, ∀ b ∈ snapshot.hits, a.id = b.id → a.status = b.status := by
  have hnone :
      (snapshot.hits.filter fun hit => !snapshot.hits.any fun h => h.id == hit.id) = [] := by
    rw [filter_eq_nil_iff]
    intro hit hhit
    simp only [Bool.not_eq_true', Bool.not_eq_false, any_eq_true]
    exact ⟨hit, hhit, beq_self_eq_true _⟩
  have hchanges : diffSnapshots (some snapshot) snapshot = .unchanged ↔
      snapshot.hits.filterMap (statusChange snapshot.hits) = [] := by
    simp [diffSnapshots, baselineHits, hnone, MonitoringDelta.unchanged]
  rw [hchanges, filterMap_eq_nil_iff]
  constructor
  · intro h a ha b hb hid
    cases hlast : lastOf MonitoringHit.id a.id snapshot.hits with
    | none => exact (lastOf_eq_none hlast a ha rfl).elim
    | some known =>
      have hknownA := statusChange_eq_none.mp (h a ha) known hlast
      rw [hid] at hlast
      exact hknownA.symm.trans (statusChange_eq_none.mp (h b hb) known hlast)
  · intro h a ha
    refine statusChange_eq_none.mpr fun known hlast => ?_
    obtain ⟨hmem, hkey⟩ := lastOf_eq_some hlast
    exact h known hmem a ha hkey

theorem status_of_watchlist (h : hit ∈ s.found sha256Hex .watchlist) : hit.status = "hit" := by
  unfold Screening.found at h
  cases hanswer : s.answer .watchlist with
  | none =>
    rw [hanswer] at h
    cases h
  | some data =>
    rw [hanswer] at h
    rw [mem_screenWatchlist h]
    rfl

/-- Sanctions hits that read the same are in one status band. -/
def Steady (sha256Hex : String → String) (s : Screening) : Prop :=
  ∀ a ∈ s.providerHits sha256Hex, ∀ b ∈ s.providerHits sha256Hex, a.list = .sanctions →
    a.identity.text = b.identity.text → a.status = b.status

theorem steady_iff (hrun : runSubjectScreening sha256Hex s = .ok snapshot)
    (hsha : Collisionless sha256Hex (s.texts sha256Hex)) :
    diffSnapshots (some snapshot) snapshot = .unchanged ↔ Steady sha256Hex s := by
  rw [diffSnapshots_self_iff]
  constructor
  · intro h a ha b hb hlist htext
    have hkept : ∀ hit ∈ s.providerHits sha256Hex, hit.list = .sanctions → hit ∈ snapshot.hits := by
      intro hit hhit hsanctions
      obtain ⟨hkind, hlisted⟩ := mem_providerHits.mp hhit
      refine (mem_hits hrun).mpr ⟨hkind, ?_⟩
      rwa [found_eq (by rw [hsanctions]; exact MonitoringListKind.noConfusion)]
    have hsame : a.list = b.list := (list_of_text htext).1
    refine h a (hkept a ha hlist) b (hkept b hb (hsame ▸ hlist)) ?_
    rw [id_of_mem ha, id_of_mem hb, hitId_of_text htext]
  · intro h a ha b hb hid
    have hA := mem_providerHits_of_mem_hits hrun ha
    have hB := mem_providerHits_of_mem_hits hrun hb
    have htext := text_of_hitId hsha (text_mem hA) (text_mem hB)
      (by rw [← id_of_mem hA, ← id_of_mem hB, hid])
    have hsame : a.list = b.list := (list_of_text htext).1
    have hfoundA := ((mem_hits hrun).mp ha).2
    have hfoundB := ((mem_hits hrun).mp hb).2
    rw [← hsame] at hfoundB
    cases hlist : a.list with
    | sanctions => exact h a hA b hB hlist htext
    | pep =>
      rw [hlist, found_pep] at hfoundA hfoundB
      have hlastA := mem_uniqueHits.mp hfoundA
      rw [hid, mem_uniqueHits.mp hfoundB] at hlastA
      rw [Option.some.inj hlastA]
    | watchlist =>
      rw [hlist] at hfoundA hfoundB
      rw [status_of_watchlist hfoundA, status_of_watchlist hfoundB]

/-! ### Two snapshots -/

/-- A delta has exactly the provider hits that came and those that went. -/
structure ExactDelta (sha256Hex : String → String) (first second : Screening)
    (delta : MonitoringDelta) : Prop where
  added : ∀ i, i ∈ delta.newHits.map MonitoringHit.identity ↔
    i ∈ second.identities sha256Hex ∧ i ∉ first.identities sha256Hex
  removed : ∀ i, i ∈ delta.removedHits.map MonitoringHit.identity ↔
    i ∈ first.identities sha256Hex ∧ i ∉ second.identities sha256Hex

/-- Hits of two screenings that read the same are both in both of them. -/
def ToldApart (sha256Hex : String → String) (first second : Screening) : Prop :=
  ∀ a ∈ first.identities sha256Hex, ∀ b ∈ second.identities sha256Hex, a.text = b.text →
    a ∈ second.identities sha256Hex ∧ b ∈ first.identities sha256Hex

end Hits

section Pairs

variable {sha256Hex : String → String} {first second : Screening} {s t : MonitoringSnapshot}

theorem exactDelta_iff (hfirst : runSubjectScreening sha256Hex first = .ok s)
    (hsecond : runSubjectScreening sha256Hex second = .ok t)
    (hsha : Collisionless sha256Hex (first.texts sha256Hex ++ second.texts sha256Hex)) :
    ExactDelta sha256Hex first second (diffSnapshots (some s) t) ↔
      ToldApart sha256Hex first second := by
  have hs := mem_identities_iff hfirst fun a ha b hb =>
    hsha a (mem_append_left _ ha) b (mem_append_left _ hb)
  have ht := mem_identities_iff hsecond fun a ha b hb =>
    hsha a (mem_append_right _ ha) b (mem_append_right _ hb)
  have hproperS : ∀ hit ∈ s.hits, hit.id = hitId sha256Hex hit.identity.parts :=
    fun hit hhit => id_of_mem (mem_providerHits_of_mem_hits hfirst hhit)
  have hproperT : ∀ hit ∈ t.hits, hit.id = hitId sha256Hex hit.identity.parts :=
    fun hit hhit => id_of_mem (mem_providerHits_of_mem_hits hsecond hhit)
  let key : Identity → String := fun identity => hitId sha256Hex identity.parts
  have hadded := @absent_iff _ _ _ _ MonitoringHit.id MonitoringHit.identity key t.hits s.hits
    hproperT hproperS
  have hremoved := @absent_iff _ _ _ _ MonitoringHit.id MonitoringHit.identity key s.hits t.hits
    hproperS hproperT
  simp only [hs, ht] at hadded hremoved
  have htext : ∀ a ∈ s.hits, ∀ b ∈ t.hits, a.id = b.id ↔ a.identity.text = b.identity.text := by
    intro a ha b hb
    rw [hproperS a ha, hproperT b hb]
    refine ⟨text_of_hitId hsha ?_ ?_, hitId_of_text⟩
    · exact mem_append_left _ (text_mem (mem_providerHits_of_mem_hits hfirst ha))
    · exact mem_append_right _ (text_mem (mem_providerHits_of_mem_hits hsecond hb))
  constructor
  · intro h a ha b hb hsame
    obtain ⟨x, hx, rfl⟩ := mem_map.mp ((hs a).mpr ha)
    obtain ⟨y, hy, rfl⟩ := mem_map.mp ((ht b).mpr hb)
    have hid := (htext x hx y hy).mpr hsame
    exact ⟨hremoved.mp h.removed x hx y hy hid, hadded.mp h.added y hy x hx hid.symm⟩
  · intro h
    have hboth : ∀ x ∈ s.hits, ∀ y ∈ t.hits, x.id = y.id →
        x.identity ∈ second.identities sha256Hex ∧ y.identity ∈ first.identities sha256Hex := by
      intro x hx y hy hid
      exact h _ ((hs _).mp (mem_map_of_mem hx)) _ ((ht _).mp (mem_map_of_mem hy))
        ((htext x hx y hy).mp hid)
    exact ⟨hadded.mpr fun y hy x hx hid => (hboth x hx y hy hid.symm).2,
      hremoved.mpr fun x hx y hy hid => (hboth x hx y hy hid).1⟩

/-- Both snapshots are unchanged against themselves, and their difference is that of the
providers' hits, exactly where the hits that read the same are the same hits, in one
status band. -/
theorem screening_delta_iff (hfirst : runSubjectScreening sha256Hex first = .ok s)
    (hsecond : runSubjectScreening sha256Hex second = .ok t)
    (hsha : Collisionless sha256Hex (first.texts sha256Hex ++ second.texts sha256Hex)) :
    (diffSnapshots (some s) s = .unchanged ∧ diffSnapshots (some t) t = .unchanged ∧
        ExactDelta sha256Hex first second (diffSnapshots (some s) t)) ↔
      Steady sha256Hex first ∧ Steady sha256Hex second ∧ ToldApart sha256Hex first second := by
  have hshaFirst : Collisionless sha256Hex (first.texts sha256Hex) := fun a ha b hb =>
    hsha a (mem_append_left _ ha) b (mem_append_left _ hb)
  have hshaSecond : Collisionless sha256Hex (second.texts sha256Hex) := fun a ha b hb =>
    hsha a (mem_append_right _ ha) b (mem_append_right _ hb)
  rw [steady_iff hfirst hshaFirst, steady_iff hsecond hshaSecond,
    exactDelta_iff hfirst hsecond hsha]

end Pairs

/-- A subject with one hit on the sanctions lists. -/
def sanctioned (sourceList name : String) : Screening where
  subjectName := "Jane Doe"
  listSet := [.sanctions]
  answer _ := some (.object [("hits",
    .array [.object [("name", .string name), ("list", .string sourceList)]])])
  screenedAt := "2026-01-01T00:00:00.000Z"

def sanctionedHit (sha256Hex : String → String) (sourceList name : String) : MonitoringHit where
  id := hitId sha256Hex ["sanctions", sourceList, name]
  list := .sanctions
  matchedName := name
  sourceList := some sourceList
  status := "hit"
  score := none

section Examples

variable {sha256Hex : String → String} {sourceList name : String}

theorem hitName_of_trimmed (h : jsTrim name.toList = name.toList) (hne : name.toList ≠ [])
    (subjectName : String) :
    hitName subjectName (.object [("name", .string name), ("list", .string sourceList)]) =
      name := by
  have hname : string? (get "name"
      (.object [("name", .string name), ("list", .string sourceList)])) = some name := rfl
  unfold hitName
  rw [hname]
  simp [h, hne]

theorem screenSanctions_sanctioned (h : jsTrim name.toList = name.toList)
    (hne : name.toList ≠ []) (subjectName : String) :
    screenSanctions sha256Hex subjectName (.object [("hits",
      .array [.object [("name", .string name), ("list", .string sourceList)]])]) =
      [sanctionedHit sha256Hex sourceList name] := by
  have hhit : sanctionsHit sha256Hex subjectName
      (.object [("name", .string name), ("list", .string sourceList)]) =
      sanctionedHit sha256Hex sourceList name := by
    unfold sanctionsHit
    rw [hitName_of_trimmed h hne]
    rfl
  change [sanctionsHit sha256Hex subjectName _] = _
  rw [hhit]

theorem run_sanctioned (h : jsTrim name.toList = name.toList) (hne : name.toList ≠ []) :
    runSubjectScreening sha256Hex (sanctioned sourceList name) =
      .ok
        { subjectName := "Jane Doe"
          screenedAt := "2026-01-01T00:00:00.000Z"
          hits := [sanctionedHit sha256Hex sourceList name] } := by
  have hname : sanitizeName "Jane Doe" = .ok "Jane Doe" := by decide
  have hsubject : sanitizeName (sanctioned sourceList name).subjectName = .ok "Jane Doe" := hname
  have hlists : screenLists sha256Hex (sanctioned sourceList name).answer "Jane Doe"
      (sanctioned sourceList name).listSet.eraseDups =
      .ok [sanctionedHit sha256Hex sourceList name] := by
    change screenLists sha256Hex (sanctioned sourceList name).answer "Jane Doe" [.sanctions] = _
    simp only [screenLists, sanctioned, screenOne, screenSanctions_sanctioned h hne]
    rfl
  simp only [runSubjectScreening, hsubject, hlists, bind, Except.bind, mergeSort_singleton]
  rfl

theorem providerHits_sanctioned (h : jsTrim name.toList = name.toList) (hne : name.toList ≠ []) :
    (sanctioned sourceList name).providerHits sha256Hex =
      [sanctionedHit sha256Hex sourceList name] := by
  simp [Screening.providerHits, Screening.listed, sanctioned, screenSanctions_sanctioned h hne]

theorem identities_sanctioned (h : jsTrim name.toList = name.toList) (hne : name.toList ≠ []) :
    (sanctioned sourceList name).identities sha256Hex = [⟨.sanctions, sourceList, name⟩] := by
  unfold Screening.identities
  rw [providerHits_sanctioned h hne]
  rfl

end Examples

/-- SHA-256 of two texts. -/
def sampledHash (text : String) : String :=
  if text = "sanctions|OFAC|JANE DOE" then
    "51cfa3d4a51499406a2f9c0dcc17abf6c704daf7c47e1dc414a841e1d29533f6"
  else if text = "sanctions|UN|JANE DOE" then
    "055c9442c6def1680ad3356e01c54abd56cfe59887aa558730b55c4fc164f8e9"
  else ""

theorem two_lists_told_apart :
    ∃ s t, runSubjectScreening sampledHash (sanctioned "OFAC" "JANE DOE") = .ok s ∧
      runSubjectScreening sampledHash (sanctioned "UN" "JANE DOE") = .ok t ∧
      diffSnapshots (some s) s = .unchanged ∧ diffSnapshots (some t) t = .unchanged ∧
      ExactDelta sampledHash (sanctioned "OFAC" "JANE DOE") (sanctioned "UN" "JANE DOE")
        (diffSnapshots (some s) t) := by
  have htrim : jsTrim "JANE DOE".toList = "JANE DOE".toList := by decide
  have hne : "JANE DOE".toList ≠ [] := by decide
  have hapart : (⟨.sanctions, "OFAC", "JANE DOE"⟩ : Identity).text ≠
      (⟨.sanctions, "UN", "JANE DOE"⟩ : Identity).text := by decide
  have hsteady : ∀ sourceList, Steady sampledHash (sanctioned sourceList "JANE DOE") := by
    intro sourceList a ha b hb _ _
    rw [providerHits_sanctioned htrim hne] at ha hb
    rw [mem_singleton.mp ha, mem_singleton.mp hb]
  refine ⟨_, _, run_sanctioned htrim hne, run_sanctioned htrim hne,
    (screening_delta_iff (run_sanctioned htrim hne) (run_sanctioned htrim hne) ?_).mpr
      ⟨hsteady "OFAC", hsteady "UN", ?_⟩⟩
  · unfold Screening.texts
    rw [identities_sanctioned htrim hne, identities_sanctioned htrim hne]
    unfold Collisionless
    decide
  · intro a ha b hb htext
    rw [identities_sanctioned htrim hne] at ha hb
    rw [mem_singleton.mp ha, mem_singleton.mp hb] at htext
    exact (hapart htext).elim

/-- With any hash: a hit of the second screening is hidden by another one of the first. -/
theorem bar_in_name_hides_hit :
    ¬ ∃ sha256Hex : String → String, ∀ (first second : Screening) (s t : MonitoringSnapshot),
      runSubjectScreening sha256Hex first = .ok s →
      runSubjectScreening sha256Hex second = .ok t →
      diffSnapshots (some s) s = .unchanged ∧ diffSnapshots (some t) t = .unchanged ∧
        ExactDelta sha256Hex first second (diffSnapshots (some s) t) := by
  rintro ⟨sha256Hex, h⟩
  have htrim : jsTrim "JANE DOE".toList = "JANE DOE".toList := by decide
  have hne : "JANE DOE".toList ≠ [] := by decide
  have htrim' : jsTrim "SDN|JANE DOE".toList = "SDN|JANE DOE".toList := by decide
  have hne' : "SDN|JANE DOE".toList ≠ [] := by decide
  obtain ⟨_, _, hexact⟩ := h (sanctioned "OFAC" "SDN|JANE DOE") (sanctioned "OFAC|SDN" "JANE DOE")
    _ _ (run_sanctioned htrim' hne') (run_sanctioned htrim hne)
  have hadded := (hexact.added ⟨.sanctions, "OFAC|SDN", "JANE DOE"⟩).mpr
  rw [identities_sanctioned htrim' hne', identities_sanctioned htrim hne] at hadded
  have hnew := hadded ⟨mem_singleton.mpr rfl, by decide⟩
  have hid : hitId sha256Hex ["sanctions", "OFAC", "SDN|JANE DOE"] =
      hitId sha256Hex ["sanctions", "OFAC|SDN", "JANE DOE"] := rfl
  simp [diffSnapshots, baselineHits, sanctionedHit, hid] at hnew

end Bis.Monitoring

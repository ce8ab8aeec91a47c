import Mathlib.Data.List.Dedup

/-!
The sanctions lists that the AML engine holds in memory: how they are seeded, what a
sync adds to them, and how a name is looked up. The names are held as a set of tokens.

Lower case and the alphanumeric characters of Unicode are arguments. The requests to the
feed and the report of a list's age are left out.
-/

namespace Bis.Aml

open List

/-- The sets of the cache are lists without repetitions. -/
structure SdnCache where
  (nameTokens bicPrefixes sanctionedCountries : List String)
  lastRefreshed : Option Nat
  entryCount : Nat

def SdnCache.empty : SdnCache := ⟨[], [], [], none, 0⟩

def insertAll (set : List String) (added : List String) : List String :=
  added.foldl (fun set x => set.insert x) set

theorem mem_insertAll {set added : List String} {x : String} :
    x ∈ insertAll set added ↔ x ∈ set ∨ x ∈ added := by
  induction added generalizing set with
  | nil => simp [insertAll]
  | cons y rest ih =>
    have hrest : x ∈ insertAll (set.insert y) rest ↔ x ∈ set.insert y ∨ x ∈ rest := ih
    rw [insertAll, foldl_cons, ← insertAll, hrest, mem_insert_iff, mem_cons]
    tauto

/-- The property `White_Space`. -/
def isWhitespace (c : Char) : Bool :=
  let n := c.toNat
  (9 ≤ n && n ≤ 13) || n == 0x20 || n == 0x85 || n == 0xa0 || n == 0x1680 ||
    (0x2000 ≤ n && n ≤ 0x200a) || n == 0x2028 || n == 0x2029 || n == 0x202f || n == 0x205f ||
    n == 0x3000

def splitWhitespace (text : List Char) : List String :=
  ((text.splitOnP isWhitespace).filter (· ≠ [])).map String.ofList

/-! ### The seed -/

def fatfHighRisk : List String :=
  ["AF", "BY", "CF", "CG", "CU", "ER", "ET", "HT", "IR", "KP", "LB", "LY", "ML", "MM", "MZ", "NI",
   "PK", "RU", "SO", "SS", "SY", "TZ", "VE", "VU", "YE", "ZW"]

/-- Two of them end in Cyrillic letters, as they do in the source. -/
def sanctionedBics : List String :=
  ["CBIRKPSE", "KORYOBNK", "MELIHBIC", "IRIBANKIR", "BKIBIRTE", "SEPAIRTE", "PARSIRTE",
   "SYRIABANK", "CBOSSYDA", "BSYRSYDA", "SBERRUММ", "VTBRRUMM", "GAZPRUMM", "ALFARUMM",
   "OTKRRUММ", "RNCBRUMM", "PJSBRUMM", "ROSBRUMM", "BAPBBY2X", "BELBBY2X", "BVENVECA", "BCVEVECA",
   "BCUBCUBA", "BICECUBA", "MABMMYMM", "CBMMYMMM", "CBLYLYTL", "CBOSSDKH"]

def seedNames : List String :=
  ["kim jong un", "bashar al-assad", "ali khamenei", "vladimir putin", "alexander lukashenko",
   "nicolas maduro", "min aung hlaing", "islamic state", "al-qaeda", "al qaeda", "hamas",
   "hezbollah", "wagner group", "prigozhin", "rosoboronexport", "gazprombank", "sberbank",
   "vtb bank", "alfa bank", "promsvyazbank"]

/-- What Rust knows of Unicode. -/
structure UnicodeTables where
  toLowercase : String → String
  isAlphanumeric : Char → Bool

section

variable (unicode : UnicodeTables)

def normaliseName (name : String) : List String :=
  let lower := unicode.toLowercase name
  let cleaned := lower.toList.map fun c =>
    if unicode.isAlphanumeric c || c == ' ' then c else ' '
  (splitWhitespace cleaned).filter fun t => 3 ≤ t.utf8ByteSize

def nameHitsSdn (name : String) (cache : SdnCache) : Bool :=
  let tokens := normaliseName unicode name
  if tokens.isEmpty then false
  else
    let hits := (tokens.filter fun t => t ∈ cache.nameTokens).length
    2 ≤ hits || tokens.any fun t => 7 ≤ t.utf8ByteSize && t ∈ cache.nameTokens

def seedStaticLists (cache : SdnCache) : SdnCache where
  sanctionedCountries := insertAll cache.sanctionedCountries fatfHighRisk
  bicPrefixes := insertAll cache.bicPrefixes sanctionedBics
  nameTokens := insertAll cache.nameTokens (seedNames.flatMap (normaliseName unicode))
  lastRefreshed := cache.lastRefreshed
  entryCount := sanctionedBics.length + fatfHighRisk.length + seedNames.length

end

/-! ### A sync -/

/-- `find`: what comes before the first occurrence of a pattern, and behind it. -/
def breakAt (pattern : List Char) : List Char → Option (List Char × List Char)
  | [] => if pattern = [] then some ([], []) else none
  | c :: rest =>
    if pattern.isPrefixOf (c :: rest) then some ([], (c :: rest).drop pattern.length)
    else (breakAt pattern rest).map fun p => (c :: p.1, p.2)

theorem breakAt_length {pattern text before behind : List Char}
    (h : breakAt pattern text = some (before, behind)) :
    behind.length + pattern.length ≤ text.length := by
  induction text generalizing before with
  | nil =>
    rw [breakAt] at h
    split at h
    next hempty =>
      cases h
      simp [hempty]
    next => cases h
  | cons c rest ih =>
    rw [breakAt] at h
    split at h
    next hstart =>
      cases h
      have hle := (List.isPrefixOf_iff_prefix.mp hstart).length_le
      rw [length_drop]
      omega
    next =>
      obtain ⟨p, hp, hpair⟩ := Option.map_eq_some_iff.mp h
      cases hpair
      have hrest := ih hp
      rw [length_cons]
      omega

def openTag (tag : String) : List Char := '<' :: (tag.toList ++ ['>'])

def closeTag (tag : String) : List Char := '<' :: '/' :: (tag.toList ++ ['>'])

/-- The texts inside a tag, from the left. -/
def namesInside (tag : String) (xml : List Char) : List String :=
  match _ : breakAt (openTag tag) xml with
  | none => []
  | some (_, inside) =>
    match _ : breakAt (closeTag tag) inside with
    | none => []
    | some (name, rest) => String.ofList name :: namesInside tag rest
termination_by xml.length
decreasing_by
  have hinside := breakAt_length ‹breakAt (openTag tag) xml = _›
  have hrest := breakAt_length ‹breakAt (closeTag tag) inside = _›
  rw [openTag, length_cons] at hinside
  omega

def extractNames (xml : List Char) : List String :=
  ["lastName", "firstName", "wholeName"].flatMap fun tag => namesInside tag xml

section

variable (unicode : UnicodeTables)

/-- The tokens are sorted only to drop the repeated ones. -/
def extractNameTokensFromXml (xml : List Char) : List String :=
  ((extractNames xml).flatMap (normaliseName unicode)).dedup

/-- What a refresh at `now` makes of the body that the feed answers with. -/
def fetchAndUpdateCache (cache : SdnCache) (now : Nat) (body : List Char) : SdnCache :=
  let nameTokens := extractNameTokensFromXml unicode body
  { cache with
    nameTokens := insertAll cache.nameTokens nameTokens
    lastRefreshed := some now
    entryCount := nameTokens.length }

/-- The cache after the seed and some refreshes. -/
def cacheAfter (refreshes : List (Nat × List Char)) : SdnCache :=
  refreshes.foldl (fun cache r => fetchAndUpdateCache unicode cache r.1 r.2)
    (seedStaticLists unicode .empty)

end

/-- The names that were inserted by then. -/
def listedNames (refreshes : List (Nat × List Char)) : List String :=
  seedNames ++ refreshes.flatMap fun r => extractNames r.2

/-! ### Lookups -/

section

variable {unicode : UnicodeTables} {cache : SdnCache} {token : String}

theorem mem_nameTokens_fetch {now : Nat} {body : List Char} :
    token ∈ (fetchAndUpdateCache unicode cache now body).nameTokens ↔
      token ∈ cache.nameTokens ∨
        ∃ name ∈ extractNames body, token ∈ normaliseName unicode name := by
  simp only [fetchAndUpdateCache, extractNameTokensFromXml, mem_insertAll, mem_dedup,
    mem_flatMap]

variable {refreshes : List (Nat × List Char)}

/-- The tokens of a cache are those of the names that were inserted, by induction on
the refreshes. -/
theorem mem_nameTokens_foldl :
    token ∈ (refreshes.foldl (fun cache r => fetchAndUpdateCache unicode cache r.1 r.2)
        cache).nameTokens ↔
      token ∈ cache.nameTokens ∨
        ∃ name ∈ refreshes.flatMap (fun r => extractNames r.2),
          token ∈ normaliseName unicode name := by
  induction refreshes generalizing cache with
  | nil => simp
  | cons r rest ih =>
    rw [foldl_cons, ih, mem_nameTokens_fetch, flatMap_cons, or_assoc]
    simp only [mem_append, or_and_right, exists_or]

theorem mem_nameTokens_cacheAfter :
    token ∈ (cacheAfter unicode refreshes).nameTokens ↔
      ∃ name ∈ listedNames refreshes, token ∈ normaliseName unicode name := by
  have hseed : token ∈ (seedStaticLists unicode .empty).nameTokens ↔
      ∃ name ∈ seedNames, token ∈ normaliseName unicode name := by
    simp only [seedStaticLists, SdnCache.empty, mem_insertAll, not_mem_nil, false_or,
      mem_flatMap]
  rw [cacheAfter, mem_nameTokens_foldl, hseed, listedNames]
  simp only [mem_append, or_and_right, exists_or]

/-- Two places of a list hold elements that satisfy `p`. -/
theorem two_le_length_filter {α : Type*} {p : α → Bool} {l : List α} :
    2 ≤ (l.filter p).length ↔ ∃ a b, [a, b].Sublist l ∧ p a = true ∧ p b = true := by
  constructor
  · intro h
    match hfilter : l.filter p, h with
    | a :: b :: rest, _ =>
      have hpair : [a, b].Sublist (l.filter p) := by
        rw [hfilter]
        exact ((nil_sublist rest).cons_cons b).cons_cons a
      have hmem : ∀ x ∈ [a, b], p x = true := fun x hx =>
        (mem_filter.mp (hpair.subset hx)).2
      exact ⟨a, b, hpair.trans filter_sublist, hmem a (by simp), hmem b (by simp)⟩
  · rintro ⟨a, b, hpair, ha, hb⟩
    have hfilter := (hpair.filter p).length_le
    simpa [ha, hb] using hfilter

theorem nameHitsSdn_iff {name : String} :
    nameHitsSdn unicode name cache = true ↔
      2 ≤ ((normaliseName unicode name).filter fun t => t ∈ cache.nameTokens).length ∨
        ∃ t ∈ normaliseName unicode name, 7 ≤ t.utf8ByteSize ∧ t ∈ cache.nameTokens := by
  unfold nameHitsSdn
  cases normaliseName unicode name with
  | nil => simp
  | cons t rest => simp

/-- The token is one of a name that was inserted. -/
def IsListed (unicode : UnicodeTables) (refreshes : List (Nat × List Char)) (token : String) :
    Prop :=
  ∃ name ∈ listedNames refreshes, token ∈ normaliseName unicode name

end

/-- A listed name with two tokens, or a token of seven bytes, is found; and a name that
is found has two listed tokens, or a listed one of seven bytes. -/
theorem nameHitsSdn_cacheAfter (unicode : UnicodeTables) (refreshes : List (Nat × List Char)) :
    (∀ name ∈ listedNames refreshes,
        (2 ≤ (normaliseName unicode name).length ∨
          ∃ token ∈ normaliseName unicode name, 7 ≤ token.utf8ByteSize) →
        nameHitsSdn unicode name (cacheAfter unicode refreshes) = true) ∧
      ∀ name, nameHitsSdn unicode name (cacheAfter unicode refreshes) = true →
        (∃ first second, [first, second].Sublist (normaliseName unicode name) ∧
            IsListed unicode refreshes first ∧ IsListed unicode refreshes second) ∨
          ∃ token ∈ normaliseName unicode name,
            7 ≤ token.utf8ByteSize ∧ IsListed unicode refreshes token := by
  constructor
  · intro name hname hlong
    have hlisted : ∀ token ∈ normaliseName unicode name,
        token ∈ (cacheAfter unicode refreshes).nameTokens := fun token htoken =>
      mem_nameTokens_cacheAfter.mpr ⟨name, hname, htoken⟩
    rw [nameHitsSdn_iff]
    rcases hlong with htwo | ⟨token, htoken, hsize⟩
    · refine .inl ?_
      rwa [filter_eq_self.mpr fun token htoken => decide_eq_true (hlisted token htoken)]
    · exact .inr ⟨token, htoken, hsize, hlisted token htoken⟩
  · intro name hhit
    rw [nameHitsSdn_iff, two_le_length_filter] at hhit
    rcases hhit with ⟨first, second, hpair, hfirst, hsecond⟩ | ⟨token, htoken, hsize, hin⟩
    · exact .inl ⟨first, second, hpair, mem_nameTokens_cacheAfter.mp (of_decide_eq_true hfirst),
        mem_nameTokens_cacheAfter.mp (of_decide_eq_true hsecond)⟩
    · exact .inr ⟨token, htoken, hsize, mem_nameTokens_cacheAfter.mp hin⟩

/-- The tables as far as they concern ASCII. -/
def asciiTables : UnicodeTables where
  toLowercase name := String.ofList (name.toList.map Char.toLower)
  isAlphanumeric := Char.isAlphanum

theorem seedNames_tokens :
    seedNames.map (normaliseName asciiTables) =
      [["kim", "jong"], ["bashar", "assad"], ["ali", "khamenei"], ["vladimir", "putin"],
       ["alexander", "lukashenko"], ["nicolas", "maduro"], ["min", "aung", "hlaing"],
       ["islamic", "state"], ["qaeda"], ["qaeda"], ["hamas"], ["hezbollah"], ["wagner", "group"],
       ["prigozhin"], ["rosoboronexport"], ["gazprombank"], ["sberbank"], ["vtb", "bank"],
       ["alfa", "bank"], ["promsvyazbank"]] := by
  decide

theorem bankGroup_tokens : normaliseName asciiTables "Bank Group" = ["bank", "group"] := by decide

theorem hamas_tokens : normaliseName asciiTables "hamas" = ["hamas"] := by decide

/-- The seeded name "hamas" is not found, and "Bank Group" is found by tokens of two
different names. -/
theorem hamas_missed_and_names_mixed :
    "hamas" ∈ listedNames [] ∧
      nameHitsSdn asciiTables "hamas" (cacheAfter asciiTables []) = false ∧
      nameHitsSdn asciiTables "Bank Group" (cacheAfter asciiTables []) = true ∧
      ∀ name ∈ listedNames [],
        normaliseName asciiTables name ≠ normaliseName asciiTables "Bank Group" ∧
          ¬∃ first ∈ normaliseName asciiTables "Bank Group",
            ∃ second ∈ normaliseName asciiTables "Bank Group",
              first ≠ second ∧ first ∈ normaliseName asciiTables name ∧
                second ∈ normaliseName asciiTables name := by
  have hseed : listedNames [] = seedNames := by simp [listedNames]
  rw [hseed]
  refine ⟨by decide, ?_, ?_, ?_⟩
  · rw [← Bool.not_eq_true, nameHitsSdn_iff, hamas_tokens]
    rintro (htwo | ⟨token, htoken, hsize, -⟩)
    · have hshort : 2 ≤ ["hamas"].length := Nat.le_trans htwo (length_filter_le _ _)
      exact absurd hshort (by decide)
    · obtain rfl := mem_singleton.mp htoken
      exact absurd hsize (by decide)
  · have hlisted : ∀ name ∈ seedNames, ∀ token ∈ normaliseName asciiTables name,
        token ∈ (cacheAfter asciiTables []).nameTokens := fun name hname token htoken =>
      mem_nameTokens_cacheAfter.mpr ⟨name, hseed ▸ hname, htoken⟩
    have hbank := hlisted "vtb bank" (by decide) "bank" (by decide)
    have hgroup := hlisted "wagner group" (by decide) "group" (by decide)
    rw [nameHitsSdn_iff, bankGroup_tokens]
    refine .inl ?_
    simp [hbank, hgroup]
  · rw [bankGroup_tokens]
    have hall := forall_mem_map (f := normaliseName asciiTables) (l := seedNames)
      (P := fun tokens => tokens ≠ ["bank", "group"] ∧
        ¬∃ first ∈ ["bank", "group"], ∃ second ∈ ["bank", "group"],
          first ≠ second ∧ first ∈ tokens ∧ second ∈ tokens)
    rw [← hall, seedNames_tokens]
    decide

end Bis.Aml

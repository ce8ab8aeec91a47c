import Bis.Encoding.Framing
import Bis.Gateway.Outbox
import Mathlib.Data.Bool.AllAny
import Mathlib.Data.List.Induction

/-!
Trace contexts in the headers `traceparent` and `baggage`. What is written is read back with
its identifiers and flags; the baggage is, if no entry holds a separator and none begins or
ends with white space. A value is found under a key in any letter case, but stored under the
key as it is spelt, so the last call counts only if it keeps the first spelling.
-/

namespace Bis.Events

open Bis.Encoding List

/-! ### Contexts -/

def isHex (text : List Char) : Bool := text.all fun c => (Json.hexValue c).isSome

/-- `str::trim`; the white space is that of Go. -/
def trim (text : List Char) : List Char := trimmed Gateway.isSpaceRune text

/-- `str::to_lowercase`. What a character becomes that is not ASCII is an argument; it may
depend on the text around the character. -/
def toLowercase (lowerAt : List Char → Nat → List Char) (text : List Char) : List Char :=
  text.zipIdx.flatMap fun (c, i) => if c.toNat < 128 then [c.toLower] else lowerAt text i

def u8FromStrRadix (text : List Char) : Option UInt8 := do
  let digits ← text.mapM Json.hexValue
  let n := digits.foldl (fun n digit => 16 * n + digit) 0
  if n < 256 then some (UInt8.ofNat n) else none

abbrev Baggage : Type := List (List Char × List Char)

structure TraceContext where
  (traceId parentSpanId : List Char)
  flags : UInt8
  tracestate : Option (List Char)
  baggage : Baggage
  isRemote : Bool

/-- An identifier as the generators write it. -/
structure HexId (width : Nat) where
  text : List Char
  length_eq : text.length = width
  digits : ∀ c ∈ text, c ∈ "0123456789abcdef".toList
  nonzero : text ≠ List.replicate width '0'

def parseEntry (entry : List Char) : Option (List Char × List Char) :=
  match splitn 2 '=' (trim ((trim entry).takeWhile (· ≠ ';'))) with
  | [key, value] =>
    if trim key = [] ∨ trim value = [] then none else some (trim key, trim value)
  | _ => none

def parseBaggage (header : List Char) : Baggage := (header.splitOn ',').filterMap parseEntry

/-- `splitn` and the checks of length go by bytes; what passes is ASCII. -/
def TraceContext.parse (lowerAt : List Char → Nat → List Char) (traceparent : List Char) :
    Option TraceContext :=
  match splitn 4 '-' (trim traceparent) with
  | [version, traceId, parentSpanId, flagsStr] =>
    if version.length ≠ 2 ∨ isHex version = false then none
    else if traceId.length ≠ 32 ∨ isHex traceId = false ∨ traceId = List.replicate 32 '0' then
      none
    else if parentSpanId.length ≠ 16 ∨ isHex parentSpanId = false ∨
        parentSpanId = List.replicate 16 '0' then none
    else if flagsStr.length ≠ 2 ∨ isHex flagsStr = false then none
    else
      (u8FromStrRadix flagsStr).map fun flags =>
        ⟨toLowercase lowerAt traceId, toLowercase lowerAt parentSpanId, flags, none, [], true⟩
  | _ => none

/-- A key of the baggage is found as it is spelt. -/
def setEntry (key value : List Char) : Baggage → Baggage
  | [] => [(key, value)]
  | entry :: rest =>
    if entry.1 = key then (entry.1, value) :: rest else entry :: setEntry key value rest

def entryText (entry : List Char × List Char) : List Char := entry.1 ++ '=' :: entry.2

namespace TraceContext

variable (lowerAt : List Char → Nat → List Char)

/-- A value that is not UTF-8 is none. -/
def readTrace (read : Option TraceContext × Option (List Char))
    (header : List Char × Option (List Char)) : Option TraceContext × Option (List Char) :=
  if toLowercase lowerAt header.1 = "traceparent".toList then
    (header.2.elim read.1 (parse lowerAt), read.2)
  else if toLowercase lowerAt header.1 = "tracestate".toList then (read.1, header.2.or read.2)
  else read

def readBaggage (baggage : Baggage) (header : List Char × Option (List Char)) : Baggage :=
  if toLowercase lowerAt header.1 = "baggage".toList then header.2.elim baggage parseBaggage
  else baggage

/-- Without a trace the context is a new root. -/
def fromKafkaHeaders (root : TraceContext) (headers : List (List Char × Option (List Char))) :
    TraceContext :=
  let read := headers.foldl (readTrace lowerAt) (none, none)
  let baggage := headers.foldl (readBaggage lowerAt) []
  match read.1 with
  | some c => { c with tracestate := read.2, baggage }
  | none => { root with baggage }

def fromHttpHeaders (root : TraceContext) (headers : List (List Char × List Char)) :
    TraceContext :=
  fromKafkaHeaders lowerAt root (headers.map fun header => (header.1, some header.2))

def baggageGet (ctx : TraceContext) (key : List Char) : Option (List Char) :=
  (ctx.baggage.find? fun entry => toLowercase lowerAt entry.1 = toLowercase lowerAt key).map
    Prod.snd

def toBaggageHeader (ctx : TraceContext) : Option (List Char) :=
  if ctx.baggage = [] then none else some ([',', ' '].intercalate (ctx.baggage.map entryText))

def withBaggage (ctx : TraceContext) (key value : List Char) : TraceContext :=
  { ctx with baggage := setEntry key value ctx.baggage }

def toTraceparentHeader (ctx : TraceContext) (currentSpanId : List Char) : List Char :=
  ['0', '0'] ++ '-' :: (ctx.traceId ++ '-' :: (currentSpanId ++ '-' ::
    [Nat.digitChar (ctx.flags.toNat / 16), Nat.digitChar (ctx.flags.toNat % 16)]))

end TraceContext

/-! ### The law -/

structure BaggageCall where
  (key value : List Char)
  key_ne : key ≠ []
  value_ne : value ≠ []

/-- A context without baggage, and then the calls. -/
def TraceContext.built (traceId : HexId 32) (parentSpanId : HexId 16) (flags : UInt8)
    (tracestate : Option (List Char)) (isRemote : Bool) (calls : List BaggageCall) : TraceContext :=
  calls.foldl (fun ctx call => ctx.withBaggage call.key call.value)
    ⟨traceId.text, parentSpanId.text, flags, tracestate, [], isRemote⟩

def TraceContext.written (ctx : TraceContext) (spanId : HexId 16) :
    List (List Char × List Char) :=
  ("traceparent".toList, ctx.toTraceparentHeader spanId.text) ::
    (ctx.toBaggageHeader.map ("baggage".toList, ·)).toList

def lastValue (p : List Char → Bool) (calls : List BaggageCall) : Option (List Char) :=
  (calls.reverse.find? fun call => p call.key).map BaggageCall.value

structure Survives (lowerAt : List Char → Nat → List Char) (root ctx : TraceContext)
    (spanId : HexId 16) (calls : List BaggageCall) : Prop where
  traceId : (TraceContext.fromHttpHeaders lowerAt root (ctx.written spanId)).traceId = ctx.traceId
  flags : (TraceContext.fromHttpHeaders lowerAt root (ctx.written spanId)).flags = ctx.flags
  baggage : (TraceContext.fromHttpHeaders lowerAt root (ctx.written spanId)).baggage = ctx.baggage
  latest : ∀ key, ctx.baggageGet lowerAt key =
    lastValue (fun other => toLowercase lowerAt other = toLowercase lowerAt key) calls

structure Clean (entry : List Char × List Char) : Prop where
  key : trim entry.1 = entry.1 ∧ ',' ∉ entry.1 ∧ ';' ∉ entry.1 ∧ '=' ∉ entry.1
  value : trim entry.2 = entry.2 ∧ ',' ∉ entry.2 ∧ ';' ∉ entry.2

/-- Of the calls whose keys agree up to letter case, the last sets the value that the last
with the first one's spelling sets. -/
def KeepsSpelling (lowerAt : List Char → Nat → List Char) (calls : List BaggageCall) : Prop :=
  ∀ key first, (calls.find? fun call => toLowercase lowerAt call.key = toLowercase lowerAt key) =
      some first →
    lastValue (fun other => other = first.key) calls =
      lastValue (fun other => toLowercase lowerAt other = toLowercase lowerAt key) calls

variable {lowerAt : List Char → Nat → List Char}

/-! ### Identifiers and flags -/

theorem hexDigit_facts : ∀ c ∈ "0123456789abcdef".toList, Gateway.isSpaceRune c = false ∧
    c ≠ '-' ∧ (Json.hexValue c).isSome = true ∧ c.toNat < 128 ∧ c.toLower = c :=
  all_iff_forall_prop.mp rfl

variable {text : List Char} {ctx : TraceContext}

theorem toLowercase_eq_self (h : ∀ c ∈ text, c.toNat < 128 ∧ c.toLower = c) :
    toLowercase lowerAt text = text := by
  have hmap : toLowercase lowerAt text = text.zipIdx.map Prod.fst := by
    unfold toLowercase
    rw [map_eq_flatMap, flatMap_def, flatMap_def]
    refine congrArg List.flatten (map_congr_left fun pair hpair => ?_)
    obtain ⟨hascii, hlower⟩ := h pair.1 (fst_mem_of_mem_zipIdx hpair)
    simp only [hascii, hlower, if_true]
  rw [hmap, zipIdx_map_fst]

theorem HexId.toLowercase_text {width : Nat} (id : HexId width) :
    toLowercase lowerAt id.text = id.text :=
  toLowercase_eq_self fun c hc => (hexDigit_facts c (id.digits c hc)).2.2.2

theorem isHex_of_digits (h : ∀ c ∈ text, c ∈ "0123456789abcdef".toList) :
    isHex text = true ∧ '-' ∉ text := by
  constructor
  · exact all_eq_true.mpr fun c hc => (hexDigit_facts c (h c hc)).2.2.1
  · exact fun hdash => (hexDigit_facts '-' (h '-' hdash)).2.1 rfl

theorem digitChar_mem {d : Nat} (h : d < 16) : d.digitChar ∈ "0123456789abcdef".toList := by
  have hall : ∀ d : Fin 16, d.val.digitChar ∈ "0123456789abcdef".toList := by decide
  exact hall ⟨d, h⟩

theorem u8FromStrRadix_digits (flags : UInt8) :
    u8FromStrRadix [(flags.toNat / 16).digitChar, (flags.toNat % 16).digitChar] =
      some flags := by
  have hbound : flags.toNat < 256 := flags.toNat_lt
  have hread : (16 * (16 * 0 + flags.toNat / 16) + flags.toNat % 16) = flags.toNat := by omega
  simp only [u8FromStrRadix, mapM_cons, mapM_nil,
    Json.hexValue_digitChar (show flags.toNat / 16 < 16 by omega),
    Json.hexValue_digitChar (show flags.toNat % 16 < 16 by omega), Option.pure_def,
    Option.bind_eq_bind, Option.bind_some, foldl_cons, foldl_nil, hread, hbound,
    if_true, UInt8.ofNat_toNat]

theorem parse_toTraceparentHeader (traceId : HexId 32) (spanId : HexId 16)
    (htrace : ctx.traceId = traceId.text) :
    TraceContext.parse lowerAt (ctx.toTraceparentHeader spanId.text) =
      some ⟨ctx.traceId, spanId.text, ctx.flags, none, [], true⟩ := by
  have hbound : ctx.flags.toNat < 256 := ctx.flags.toNat_lt
  have hflags : ∀ c ∈ [(ctx.flags.toNat / 16).digitChar, (ctx.flags.toNat % 16).digitChar],
      c ∈ "0123456789abcdef".toList := by
    simp only [forall_mem_cons]
    exact ⟨digitChar_mem (by omega), digitChar_mem (by omega), nofun⟩
  have hversion : ∀ c ∈ ['0', '0'], c ∈ "0123456789abcdef".toList := by simp
  obtain ⟨hhexFlags, _⟩ := isHex_of_digits hflags
  obtain ⟨hhexTrace, hdashTrace⟩ := isHex_of_digits traceId.digits
  obtain ⟨hhexSpan, hdashSpan⟩ := isHex_of_digits spanId.digits
  have hsolid {text : List Char} (h : ∀ c ∈ text, c ∈ "0123456789abcdef".toList) :
      ∀ c ∈ text, Gateway.isSpaceRune c = false := fun c hc => (hexDigit_facts c (h c hc)).1
  have htrim : trim (ctx.toTraceparentHeader spanId.text) = ctx.toTraceparentHeader spanId.text := by
    have hdash : Gateway.isSpaceRune '-' = false := by decide
    apply trimmed_of_none
    unfold TraceContext.toTraceparentHeader
    rw [htrace]
    simp only [forall_mem_append, forall_mem_cons (a := '-')]
    exact ⟨hsolid hversion, hdash, hsolid traceId.digits, hdash, hsolid spanId.digits, hdash,
      hsolid hflags⟩
  unfold TraceContext.parse
  rw [htrim]
  unfold TraceContext.toTraceparentHeader
  rw [htrace, splitn_append (isHex_of_digits hversion).2, splitn_append hdashTrace,
    splitn_append hdashSpan]
  simp only [splitn, (isHex_of_digits hversion).1, hhexTrace, hhexSpan, hhexFlags, traceId.length_eq,
    spanId.length_eq, traceId.nonzero, spanId.nonzero, u8FromStrRadix_digits,
    traceId.toLowercase_text, spanId.toLowercase_text]
  rfl

/-! ### Baggage -/

theorem mem_of_mem_trim {c : Char} (h : c ∈ trim text) : c ∈ text :=
  mem_of_mem_trimmed h

theorem trim_eq_self_of_append {front back : List Char} {c : Char} (hfront : trim front = front)
    (hback : trim back = back) (hfront_ne : front ≠ []) (hback_ne : back ≠ []) :
    trim (front ++ c :: back) = front ++ c :: back := by
  obtain ⟨hfirst, _⟩ := trimmed_eq_self_iff.mp hfront
  obtain ⟨_, hlast⟩ := trimmed_eq_self_iff.mp hback
  apply trimmed_eq_self_iff.mpr
  constructor
  · rwa [head?_append_of_ne_nil _ hfront_ne]
  · rwa [getLast?_append_of_ne_nil _ (cons_ne_nil c back),
      getLast?_cons_of_ne_nil hback_ne]

theorem takeWhile_eq_self {c : Char} (h : c ∉ text) : text.takeWhile (· ≠ c) = text :=
  takeWhile_eq_self_iff.mpr fun a ha => by simpa using fun heq : a = c => h (heq ▸ ha)

/-- White space before an entry is lost. -/
theorem parseEntry_entryText {entry : List Char × List Char} (h : Clean entry)
    (hkey : entry.1 ≠ []) (hvalue : entry.2 ≠ []) {lead : List Char}
    (hlead : ∀ c ∈ lead, Gateway.isSpaceRune c) :
    parseEntry (lead ++ entryText entry) = some entry := by
  obtain ⟨⟨htrimKey, _, hsemiKey, hequals⟩, htrimValue, _, hsemiValue⟩ := h
  have htrim : trim (entryText entry) = entryText entry :=
    trim_eq_self_of_append htrimKey htrimValue hkey hvalue
  have hentry : trim (lead ++ entryText entry) = entryText entry := by
    refine Eq.trans ?_ htrim
    unfold trim trimmed
    rw [dropWhile_append_of_pos hlead]
  have hsemi : ';' ∉ entryText entry := by
    simp only [entryText, mem_append, mem_cons, not_or]
    exact ⟨hsemiKey, by decide, hsemiValue⟩
  unfold parseEntry
  rw [hentry, takeWhile_eq_self hsemi, htrim, entryText, splitn_append hequals]
  simp only [splitn, htrimKey, htrimValue, hkey, hvalue, or_self, if_false]

theorem parseBaggage_toBaggageHeader {baggage : Baggage} (hclean : ∀ entry ∈ baggage, Clean entry)
    (hne : ∀ entry ∈ baggage, entry.1 ≠ [] ∧ entry.2 ≠ []) (hbaggage : baggage ≠ [])
    {lead : List Char} (hlead : ∀ c ∈ lead, Gateway.isSpaceRune c ∧ c ≠ ',') :
    parseBaggage (lead ++ [',', ' '].intercalate (baggage.map entryText)) = baggage := by
  induction baggage generalizing lead with
  | nil => exact absurd rfl hbaggage
  | cons entry rest ih =>
    obtain ⟨hentry, hrest⟩ := forall_mem_cons.mp hclean
    obtain ⟨⟨hkey, hvalue⟩, hneRest⟩ := forall_mem_cons.mp hne
    have hread := parseEntry_entryText hentry hkey hvalue fun c hc => (hlead c hc).1
    have hcomma : ',' ∉ lead ++ entryText entry := by
      simp only [entryText, mem_append, mem_cons, not_or]
      exact ⟨fun hmem => (hlead ',' hmem).2 rfl, hentry.key.2.1, by decide, hentry.value.2.1⟩
    cases rest with
    | nil =>
      unfold parseBaggage
      rw [map_singleton, intercalate_singleton, splitOn_eq_singleton hcomma]
      simp [hread]
    | cons next others =>
      have hspace : ∀ c ∈ [' '], Gateway.isSpaceRune c ∧ c ≠ ',' := all_iff_forall_prop.mp rfl
      have hothers := ih hrest hneRest (cons_ne_nil _ _) hspace
      unfold parseBaggage at hothers ⊢
      rw [map_cons, map_cons, intercalate_cons_cons, ← map_cons]
      have hsplit : lead ++ (entryText entry ++ [',', ' '] ++
            [',', ' '].intercalate ((next :: others).map entryText)) =
          (lead ++ entryText entry) ++
            ',' :: ([' '] ++ [',', ' '].intercalate ((next :: others).map entryText)) := by simp
      rw [hsplit, splitOn_append_cons_self_of_not_mem hcomma, filterMap_cons, hread,
        hothers]

/-- What is read is clean. -/
theorem clean_of_parseBaggage {header : List Char} :
    ∀ entry ∈ parseBaggage header, Clean entry := by
  intro entry hentry
  obtain ⟨piece, hpiece, hread⟩ := mem_filterMap.mp hentry
  have hcomma := not_mem_of_mem_splitOn piece hpiece
  unfold parseEntry at hread
  split at hread
  next key value hsplit =>
    split at hread
    next => cases hread
    next =>
      cases hread
      obtain ⟨hequals, c, htext⟩ := splitn_two hsplit
      have hpart {part : List Char} (h : ∀ a ∈ part, a ∈ key ++ c :: value) :
          ',' ∉ trim part ∧ ';' ∉ trim part := by
        have hmem {a : Char} (ha : a ∈ trim part) : a ∈ (trim piece).takeWhile (· ≠ ';') :=
          mem_of_mem_trim (htext ▸ h a (mem_of_mem_trim ha))
        refine ⟨fun ha => hcomma (mem_of_mem_trim ?_), fun ha => ?_⟩
        · exact (takeWhile_sublist _).subset (hmem ha)
        · simpa using mem_takeWhile_imp (hmem ha)
      obtain ⟨hcommaKey, hsemiKey⟩ := hpart fun a ha => mem_append_left _ ha
      have hvalue := hpart fun a ha => mem_append_right key (mem_cons_of_mem c ha)
      have htrim (text : List Char) : trim (trim text) = trim text :=
        trimmed_eq_self_iff.mpr (trimmed_ends ..)
      exact ⟨⟨htrim key, hcommaKey, hsemiKey, fun ha => hequals (mem_of_mem_trim ha)⟩,
        htrim value, hvalue⟩
  next => cases hread

/-! ### Contexts and calls -/

theorem find?_setEntry (p : List Char → Bool) (key value : List Char) (baggage : Baggage) :
    (setEntry key value baggage).find? (fun entry => p entry.1) =
      match baggage.find? fun entry => p entry.1 with
      | some entry => if entry.1 = key then some (key, value) else some entry
      | none => if p key then some (key, value) else none := by
  induction baggage with
  | nil =>
    unfold setEntry
    cases hp : p key <;> simp [hp]
  | cons entry rest ih =>
    unfold setEntry
    split
    next heq =>
      subst heq
      cases hp : p entry.1 with
      | true => simp [hp]
      | false =>
        cases hfind : rest.find? fun entry => p entry.1 with
        | none => simp [hp, hfind]
        | some other =>
          have hne : other.1 ≠ entry.1 := fun heq => by
            have hother := find?_some hfind
            rw [heq, hp] at hother
            cases hother
          simp [hp, hfind, hne]
    next hne => cases hp : p entry.1 <;> simp [hp, hne, ih]

theorem lastValue_concat (p : List Char → Bool) (calls : List BaggageCall) (call : BaggageCall) :
    lastValue p (calls ++ [call]) = if p call.key then some call.value else lastValue p calls := by
  unfold lastValue
  rw [reverse_concat, find?_cons]
  cases hp : p call.key <;> simp

def stored (calls : List BaggageCall) : Baggage :=
  calls.foldl (fun baggage call => setEntry call.key call.value baggage) []

/-- Under the first key that is found stands the last value that it was given. -/
theorem find?_stored (p : List Char → Bool) (calls : List BaggageCall) :
    (stored calls).find? (fun entry => p entry.1) =
      (calls.find? fun call => p call.key).bind fun first =>
        (lastValue (fun other => other = first.key) calls).map (first.key, ·) := by
  induction calls using List.reverseRecOn with
  | nil => rfl
  | append_singleton calls call ih =>
    have hstored : stored (calls ++ [call]) = setEntry call.key call.value (stored calls) := by
      simp [stored]
    rw [hstored, find?_setEntry, ih, find?_append]
    cases hfind : calls.find? fun call => p call.key with
    | none => cases hp : p call.key <;> simp [hp, lastValue_concat]
    | some first =>
      have hgiven : (lastValue (fun other => other = first.key) calls).isSome = true := by
        unfold lastValue
        rw [Option.isSome_map, find?_isSome]
        exact ⟨first, mem_reverse.mpr (mem_of_find?_eq_some hfind), by simp⟩
      obtain ⟨value, hvalue⟩ := Option.isSome_iff_exists.mp hgiven
      by_cases hkey : call.key = first.key
      · simp [hvalue, hkey, lastValue_concat]
      · simp [hvalue, hkey, Ne.symm hkey, lastValue_concat]

theorem foldl_withBaggage (calls : List BaggageCall) (ctx : TraceContext) :
    calls.foldl (fun ctx call => ctx.withBaggage call.key call.value) ctx =
      { ctx with baggage :=
        calls.foldl (fun baggage call => setEntry call.key call.value baggage) ctx.baggage } := by
  induction calls generalizing ctx with
  | nil => rfl
  | cons call rest ih => exact ih _

theorem forall_setEntry {P : List Char × List Char → Prop} {key value : List Char}
    (hnew : P (key, value)) : ∀ {baggage : Baggage}, (∀ entry ∈ baggage, P entry) →
      ∀ entry ∈ setEntry key value baggage, P entry
  | [], _ => by simpa [setEntry] using hnew
  | first :: rest, h => by
    obtain ⟨hfirst, hrest⟩ := forall_mem_cons.mp h
    unfold setEntry
    split
    next heq => exact forall_mem_cons.mpr ⟨heq ▸ hnew, hrest⟩
    next => exact forall_mem_cons.mpr ⟨hfirst, forall_setEntry hnew hrest⟩

theorem stored_ne (calls : List BaggageCall) :
    ∀ entry ∈ stored calls, entry.1 ≠ [] ∧ entry.2 ≠ [] := by
  induction calls using List.reverseRecOn with
  | nil => nofun
  | append_singleton calls call ih =>
    unfold stored at ih ⊢
    rw [foldl_concat]
    exact forall_setEntry (P := fun entry => entry.1 ≠ [] ∧ entry.2 ≠ [])
      ⟨call.key_ne, call.value_ne⟩ ih

theorem fromHttpHeaders_written {root : TraceContext} {traceId : HexId 32} {spanId : HexId 16}
    (htrace : ctx.traceId = traceId.text) :
    TraceContext.fromHttpHeaders lowerAt root (ctx.written spanId) =
      ⟨ctx.traceId, spanId.text, ctx.flags, none,
        (ctx.toBaggageHeader.map parseBaggage).getD [], true⟩ := by
  have htraceparent : toLowercase lowerAt "traceparent".toList = "traceparent".toList :=
    toLowercase_eq_self (all_iff_forall_prop.mp rfl)
  have hbaggage : toLowercase lowerAt "baggage".toList = "baggage".toList :=
    toLowercase_eq_self (all_iff_forall_prop.mp rfl)
  unfold TraceContext.fromHttpHeaders TraceContext.fromKafkaHeaders TraceContext.written
  cases ctx.toBaggageHeader with
  | none =>
    simp only [Option.map_none, Option.toList_none, map_cons, map_nil, foldl_cons,
      foldl_nil, TraceContext.readTrace, TraceContext.readBaggage, htraceparent, if_true,
      Option.elim_some, parse_toTraceparentHeader traceId spanId htrace]
    rfl
  | some header =>
    simp only [Option.map_some, Option.toList_some, map_cons, map_nil, foldl_cons,
      foldl_nil, TraceContext.readTrace, TraceContext.readBaggage, htraceparent, hbaggage,
      if_true, Option.elim_some, parse_toTraceparentHeader traceId spanId htrace]
    rfl

/-- The baggage is read back exactly if it is clean. -/
theorem read_baggage_iff {calls : List BaggageCall} (h : ctx.baggage = stored calls) :
    (ctx.toBaggageHeader.map parseBaggage).getD [] = ctx.baggage ↔
      ∀ entry ∈ ctx.baggage, Clean entry := by
  unfold TraceContext.toBaggageHeader
  split
  next hempty => simp [hempty]
  next hfull =>
    constructor
    · intro heq
      rw [← heq]
      exact clean_of_parseBaggage
    · intro hclean
      exact @parseBaggage_toBaggageHeader _ hclean (h ▸ stored_ne calls) hfull [] nofun

theorem baggageGet_iff {calls : List BaggageCall} (h : ctx.baggage = stored calls) :
    (∀ key, ctx.baggageGet lowerAt key =
        lastValue (fun other => toLowercase lowerAt other = toLowercase lowerAt key) calls) ↔
      KeepsSpelling lowerAt calls := by
  refine forall_congr' fun key => ?_
  have hfind := find?_stored
    (fun other => toLowercase lowerAt other = toLowercase lowerAt key) calls
  unfold TraceContext.baggageGet
  rw [h, hfind]
  cases hcall : calls.find? fun call =>
      toLowercase lowerAt call.key = toLowercase lowerAt key with
  | none =>
    have hlast : lastValue
        (fun other => toLowercase lowerAt other = toLowercase lowerAt key) calls = none := by
      unfold lastValue
      rw [Option.map_eq_none_iff, find?_eq_none]
      exact fun call hmem => find?_eq_none.mp hcall call (mem_reverse.mp hmem)
    simp [hlast]
  | some first => simp [Function.comp_def, Option.map_map]

/-- What is written is read back, and every call is found, exactly if the baggage is clean and
the calls keep to a spelling. -/
theorem survives_iff (lowerAt : List Char → Nat → List Char) (root : TraceContext)
    (traceId : HexId 32) (parentSpanId spanId : HexId 16) (flags : UInt8)
    (tracestate : Option (List Char)) (isRemote : Bool) (calls : List BaggageCall) :
    Survives lowerAt root
        (TraceContext.built traceId parentSpanId flags tracestate isRemote calls) spanId calls ↔
      (∀ entry ∈ (TraceContext.built traceId parentSpanId flags tracestate isRemote calls).baggage,
        Clean entry) ∧ KeepsSpelling lowerAt calls := by
  have hbuilt : TraceContext.built traceId parentSpanId flags tracestate isRemote calls =
      ⟨traceId.text, parentSpanId.text, flags, tracestate, stored calls, isRemote⟩ :=
    foldl_withBaggage ..
  rw [hbuilt]
  generalize hctx : (⟨traceId.text, parentSpanId.text, flags, tracestate, stored calls,
    isRemote⟩ : TraceContext) = ctx
  have htrace : ctx.traceId = traceId.text := by rw [← hctx]
  have hstored : ctx.baggage = stored calls := by rw [← hctx]
  have hread := @fromHttpHeaders_written lowerAt ctx root traceId spanId htrace
  rw [← read_baggage_iff hstored, ← baggageGet_iff hstored]
  constructor
  · intro h
    have hbaggage := h.baggage
    rw [hread] at hbaggage
    exact ⟨hbaggage, h.latest⟩
  · rintro ⟨hbaggage, hlatest⟩
    refine ⟨?_, ?_, ?_, hlatest⟩
    · rw [hread]
    · rw [hread]
    · rw [hread]
      exact hbaggage

/-! A value with a comma in it. -/

def onesTrace : HexId 32 := ⟨List.replicate 32 '1', rfl, by simp, by decide⟩

def onesSpan : HexId 16 := ⟨List.replicate 16 '1', rfl, by simp, by decide⟩

theorem comma_truncates : ¬ ∀ (lowerAt : List Char → Nat → List Char) (root : TraceContext)
    (traceId : HexId 32) (parentSpanId spanId : HexId 16) (flags : UInt8)
    (tracestate : Option (List Char)) (isRemote : Bool) (calls : List BaggageCall),
    Survives lowerAt root
      (TraceContext.built traceId parentSpanId flags tracestate isRemote calls) spanId calls := by
  intro h
  have hbaggage := (h (fun _ _ => []) ⟨[], [], 0, none, [], false⟩ onesTrace onesSpan onesSpan 1
    none false [⟨['k'], ['a', ',', 'b'], nofun, nofun⟩]).baggage
  rw [@fromHttpHeaders_written _ _ _ onesTrace _ rfl] at hbaggage
  revert hbaggage
  decide

end Bis.Events

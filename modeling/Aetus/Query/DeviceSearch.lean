import Mathlib.Data.List.DropRight
import Aetus.Base.Ascii
import Aetus.Query.App
import Aetus.Query.SummaryFaithful

/-!
The two paths of the device search: `ILIKE` over the table of devices, and the text within the
lower-cased ids of a principal's own list.
-/

set_option autoImplicit false

namespace Aetus.Ingest

theorem strip_strip (isSpace : Char → Bool) (text : List Char) :
    strip isSpace (strip isSpace text) = strip isSpace text := by
  let front := text.dropWhile isSpace
  have hprefix : front.rdropWhile isSpace <+: front := List.rdropWhile_prefix isSpace front
  have hfront : (front.rdropWhile isSpace).dropWhile isSpace = front.rdropWhile isSpace := by
    cases hrest : front.rdropWhile isSpace with
    | nil => rfl
    | cons c rest =>
      rw [hrest] at hprefix
      obtain ⟨back, hback⟩ := hprefix
      have hc : ¬isSpace c = true := by
        have hhead := List.head?_dropWhile_not isSpace text
        rw [show text.dropWhile isSpace = c :: (rest ++ back) from hback.symm] at hhead
        simpa using hhead
      rw [List.dropWhile_cons_of_neg hc]
  show ((front.rdropWhile isSpace).dropWhile isSpace).rdropWhile isSpace = _
  rw [hfront]
  exact List.rdropWhile_idempotent isSpace front

def isPatternChar (c : Char) : Bool := c = '%' || c = '_' || c = '\\'

namespace Dialect

variable {c : Char} {pattern text : List Char}

theorem like_percent : postgres.like ('%' :: pattern) text = true ↔
    ∃ rest, rest <:+ text ∧ postgres.like pattern rest = true := by
  cases pattern with
  | nil => simp [like, List.nil_suffix]
  | cons d pattern => simp [like, escape, List.any_eq_true, List.mem_tails]

theorem like_underscore : postgres.like ('_' :: pattern) text = true ↔
    ∃ c rest, text = c :: rest ∧ postgres.like pattern rest = true := by
  cases pattern with
  | nil => cases text <;> simp [like]
  | cons d pattern => cases text <;> simp [like, escape]

theorem like_escape : postgres.like ('\\' :: c :: pattern) text = true ↔
    ∃ rest, text = c :: rest ∧ postgres.like pattern rest = true := by
  cases text <;> simp [like, escape, fold, and_assoc]

theorem like_plain (h : isPatternChar c = false) : postgres.like (c :: pattern) text = true ↔
    ∃ rest, text = c :: rest ∧ postgres.like pattern rest = true := by
  simp only [isPatternChar, Bool.or_eq_false_iff, decide_eq_false_iff_not] at h
  obtain ⟨⟨hpercent, hunderscore⟩, hescape⟩ := h
  cases pattern with
  | nil => cases text <;> simp [like, escape, fold, hpercent, hunderscore, Ne.symm hescape, and_assoc]
  | cons d pattern =>
    cases text <;> simp [like, escape, fold, hpercent, hunderscore, Ne.symm hescape, and_assoc]

theorem like_append_percent (h : ∀ c ∈ pattern, isPatternChar c = false) (text : List Char) :
    postgres.like (pattern ++ ['%']) text = true ↔ pattern <+: text := by
  induction pattern generalizing text with
  | nil => simp [like]
  | cons c pattern ih =>
    rw [List.cons_append, like_plain (h c List.mem_cons_self), List.cons_prefix_iff]
    simp only [ih fun d hd => h d (List.mem_cons_of_mem c hd)]

/-- Between percent signs a plain text matches what it is a part of. -/
theorem like_between_percents (h : ∀ c ∈ pattern, isPatternChar c = false) (text : List Char) :
    postgres.like (['%'] ++ pattern ++ ['%']) text = true ↔ pattern <:+: text := by
  rw [List.append_assoc, List.singleton_append, like_percent, List.infix_iff_prefix_suffix]
  simp only [like_append_percent h, and_comm]

/-- The least that a character of a pattern stands for. -/
def standIn (c : Char) : List Char :=
  if c = '%' then [] else if c = '_' then ['a'] else [c]

/-- A text that matches the pattern, perhaps behind a backslash, and a percent sign after it. -/
def sample : Bool → List Char → List Char
  | false, [] => []
  | true, [] => ['%']
  | true, c :: pattern => c :: sample false pattern
  | false, c :: pattern =>
    if c = '\\' then sample true pattern else standIn c ++ sample false pattern

theorem like_standIn (h : c ≠ '\\') (hrest : postgres.like pattern text = true) :
    postgres.like (c :: pattern) (standIn c ++ text) = true := by
  by_cases hpercent : c = '%'
  · subst hpercent
    exact like_percent.mpr ⟨text, List.suffix_rfl, hrest⟩
  · by_cases hunderscore : c = '_'
    · subst hunderscore
      exact like_underscore.mpr ⟨'a', text, rfl, hrest⟩
    · have hplain : isPatternChar c = false := by
        simp [isPatternChar, hpercent, hunderscore, h]
      exact (like_plain hplain).mpr ⟨text, by simp [standIn, hpercent, hunderscore], hrest⟩

theorem like_sample (escaped : Bool) (pattern : List Char) :
    postgres.like ((if escaped then '\\' :: pattern else pattern) ++ ['%'])
      (sample escaped pattern) = true := by
  fun_induction sample escaped pattern with
  | case1 => rfl
  | case2 => decide
  | case3 c pattern ih => exact like_escape.mpr ⟨_, rfl, ih⟩
  | case4 pattern ih => exact ih
  | case5 c pattern hc ih => exact like_standIn hc ih

theorem mem_sample {escaped : Bool} (h : c ∈ sample escaped pattern) :
    c = 'a' ∨ c = '%' ∨ c ∈ pattern := by
  fun_induction sample escaped pattern with
  | case1 => cases h
  | case2 => simp_all
  | case3 d pattern ih => grind
  | case4 pattern ih => grind
  | case5 d pattern hd ih => grind [standIn]

theorem count_sample_le (escaped : Bool) (pattern : List Char) :
    (sample escaped pattern).count '\\' ≤ pattern.count '\\' := by
  fun_induction sample escaped pattern with
  | case1 => simp
  | case2 => decide
  | case3 c pattern ih => grind
  | case4 pattern ih => grind
  | case5 c pattern hc ih => grind [standIn]

theorem count_sample_lt (h : '\\' ∈ pattern) :
    (sample false pattern).count '\\' < pattern.count '\\' := by
  induction pattern with
  | nil => cases h
  | cons c pattern ih =>
    have hle := count_sample_le true pattern
    by_cases hc : c = '\\'
    · grind [sample]
    · grind [sample, standIn]

theorem sample_plain (h : '\\' ∉ pattern) : '%' ∉ sample false pattern ∧ '_' ∉ sample false pattern := by
  induction pattern with
  | nil => simp [sample]
  | cons c pattern ih => grind [sample, standIn]

end Dialect
end Aetus.Ingest

namespace Aetus.Query
open Aetus.Base Aetus.Ingest

variable {F : Type} {platform : Platform F} {store : Store F}
  {lower sqlLower : List Char → List Char} {search deviceId : List Char}

/-- What holds of `str.lower`, and of the lower-casing of a database: no character is lowered to a
pattern character or to two of them, and what is lowered stays. -/
structure LowersTexts (lower : List Char → List Char) : Prop where
  between : ∀ text, lower (['%'] ++ text ++ ['%']) = ['%'] ++ lower text ++ ['%']
  count : ∀ c, isPatternChar c = true → ∀ text, (lower text).count c = text.count c
  lowered : ∀ text, ∀ c ∈ lower text, lower [c] = [c]
  kept : ∀ text, (∀ c ∈ text, lower [c] = [c]) → lower text = text
  a_kept : lower ['a'] = ['a']

theorem LowersTexts.mem_iff (h : LowersTexts lower) {c : Char} (hc : isPatternChar c = true)
    (text : List Char) : c ∈ lower text ↔ c ∈ text := by
  rw [← List.count_pos_iff, ← List.count_pos_iff, h.count c hc]

theorem LowersTexts.nil (h : LowersTexts lower) : lower [] = [] := h.kept [] nofun

theorem LowersTexts.percent (h : LowersTexts lower) : lower ['%'] = ['%'] := by
  have hbetween : lower ['%', '%'] = ['%', '%'] := by
    simpa [h.nil] using h.between []
  exact h.lowered ['%', '%'] '%' (by simp [hbetween])

theorem LowersTexts.plain (h : LowersTexts lower) {text : List Char}
    (hplain : ∀ c ∈ text, isPatternChar c = false) : ∀ c ∈ lower text, isPatternChar c = false := by
  intro c hc
  by_contra hpattern
  rw [Bool.not_eq_false] at hpattern
  rw [hplain c ((h.mem_iff hpattern text).mp hc)] at hpattern
  cases hpattern

def sampleDevice (lower : List Char → List Char) (text : List Char) : List Char :=
  'a' :: Dialect.sample false (lower text)

theorem LowersTexts.sampleDevice_kept (h : LowersTexts lower) (text : List Char) :
    lower (sampleDevice lower text) = sampleDevice lower text := by
  refine h.kept _ fun c hc => ?_
  rcases List.mem_cons.mp hc with rfl | hc
  · exact h.a_kept
  · rcases Dialect.mem_sample hc with rfl | rfl | hmem
    · exact h.a_kept
    · exact h.percent
    · exact h.lowered text c hmem

theorem LowersTexts.like_sampleDevice (h : LowersTexts lower) (text : List Char) :
    Dialect.postgres.like (lower (['%'] ++ text ++ ['%'])) (lower (sampleDevice lower text)) =
      true := by
  rw [h.between, h.sampleDevice_kept, List.append_assoc, List.singleton_append,
    Dialect.like_percent]
  exact ⟨_, List.suffix_cons _ _, Dialect.like_sample false (lower text)⟩

theorem not_infix_sampleDevice (hsql : LowersTexts sqlLower) (h : LowersTexts lower)
    {text : List Char} {c : Char} (hc : isPatternChar c = true) (hmem : c ∈ text) :
    ¬lower text <:+: lower (sampleDevice sqlLower text) := by
  intro hpart
  by_cases hescape : '\\' ∈ text
  · have hle : text.count '\\' ≤ (Dialect.sample false (sqlLower text)).count '\\' := by
      have hcount := hpart.sublist.count_le '\\'
      rw [h.count _ rfl, h.count _ rfl] at hcount
      simpa [sampleDevice] using hcount
    have hlt := Dialect.count_sample_lt ((hsql.mem_iff (c := '\\') rfl text).mpr hescape)
    rw [hsql.count _ rfl] at hlt
    omega
  · have hsample := Dialect.sample_plain fun hsql' =>
      hescape ((hsql.mem_iff (c := '\\') rfl text).mp hsql')
    have hdevice : c ∈ sampleDevice sqlLower text :=
      (h.mem_iff hc _).mp (hpart.subset ((h.mem_iff hc text).mpr hmem))
    simp only [isPatternChar, Bool.or_eq_true, decide_eq_true_eq] at hc
    rcases hc with (rfl | rfl) | rfl
    · simp [sampleDevice, hsample.1] at hdevice
    · simp [sampleDevice, hsample.2] at hdevice
    · exact hescape hmem

/-! The search -/

def devicesFound (platform : Platform F) (store : Store F) (principal : QueryPrincipal)
    (search : List Char) : List (List Char) :=
  let query := strip platform.unicode.isSpace search
  if principal.canReadAllDevices then
    if query ≠ [] then store.telemetry.devices.filter (platform.ilike (['%'] ++ query ++ ['%']))
    else store.telemetry.devices
  else
    let needle := platform.unicode.lower query
    (sortedSet principal.devices).filter fun deviceId =>
      needle = [] ∨ needle <:+: platform.unicode.lower deviceId

/-- Where the limit is one of the endpoint and not less than the matches, a principal for all devices
and one for the devices of the table are answered with the same ids. -/
def SearchesAgree (platform : Platform F) (search : List Char) : Prop :=
  ∀ (store : Store F) (everyone listed : QueryPrincipal) (limit : Int),
    everyone.devices = [['*']] →
    (∀ deviceId, deviceId ∈ listed.devices ↔ deviceId ∈ store.telemetry.devices) →
    1 ≤ limit → limit ≤ 100 →
    (devicesFound platform store everyone search).length ≤ limit →
    (devicesFound platform store listed search).length ≤ limit →
    ∃ found found', readDevices platform store everyone search limit = .ok found ∧
      readDevices platform store listed search limit = .ok found' ∧
      ∀ deviceId, deviceId ∈ found ↔ deviceId ∈ found'

theorem mem_readDevices {principal : QueryPrincipal} {limit : Int}
    (hnul : '\x00' ∉ strip platform.unicode.isSpace search) (hlow : 1 ≤ limit) (hhigh : limit ≤ 100)
    (hlen : (devicesFound platform store principal search).length ≤ limit) :
    ∃ found, readDevices platform store principal search limit = .ok found ∧
      ∀ deviceId, deviceId ∈ found ↔ deviceId ∈ devicesFound platform store principal search := by
  have hlimit : (max 1 (min limit 100)).toNat = limit.toNat := by omega
  unfold readDevices devicesFound at *
  dsimp only at *
  split at hlen
  · next hall =>
    rw [if_pos hall]
    simp only [searchDevices, strip_strip, if_neg hnul, hlimit]
    refine ⟨_, rfl, fun deviceId => ?_⟩
    rw [Collation.orderBy, List.take_of_length_le (by rw [List.length_insertionSort]; omega),
      List.mem_insertionSort, if_pos hall]
  · next hall =>
    rw [if_neg hall]
    refine ⟨_, rfl, fun deviceId => ?_⟩
    rw [List.take_of_length_le (by omega), if_neg hall]

theorem mem_devicesFound_everyone {everyone : QueryPrincipal} (h : everyone.canReadAllDevices = true) :
    deviceId ∈ devicesFound platform store everyone search ↔
      deviceId ∈ store.telemetry.devices ∧ (strip platform.unicode.isSpace search = [] ∨
        platform.ilike (['%'] ++ strip platform.unicode.isSpace search ++ ['%']) deviceId = true) := by
  rw [devicesFound]
  dsimp only
  rw [if_pos h]
  split
  · next hne => simp [hne]
  · next hnil => simp [not_not.mp hnil]

theorem mem_devicesFound_listed {listed : QueryPrincipal} (h : listed.canReadAllDevices = false) :
    deviceId ∈ devicesFound platform store listed search ↔ deviceId ∈ listed.devices ∧
      platform.unicode.lower (strip platform.unicode.isSpace search) <:+:
        platform.unicode.lower deviceId := by
  have hpart (needle text : List Char) : needle = [] ∨ needle <:+: text ↔ needle <:+: text :=
    or_iff_right_of_imp fun hnil => hnil ▸ List.nil_infix
  rw [devicesFound]
  dsimp only
  rw [if_neg (Bool.eq_false_iff.mp h)]
  simp [sortedSet, hpart]

theorem ilike_plain (hilike : ∀ pattern text, platform.ilike pattern text =
      Dialect.postgres.like (sqlLower pattern) (sqlLower text))
    (hsql : LowersTexts sqlLower) {query : List Char} (h : ∀ c ∈ query, isPatternChar c = false) :
    platform.ilike (['%'] ++ query ++ ['%']) deviceId = true ↔
      sqlLower query <:+: sqlLower deviceId := by
  rw [hilike, hsql.between, Dialect.like_between_percents (hsql.plain h)]

theorem length_devicesFound_le (store : Store F) (principal : QueryPrincipal) :
    (devicesFound platform store principal search).length ≤
      max store.telemetry.devices.length principal.devices.length := by
  rw [devicesFound]
  dsimp only
  split
  · refine le_trans ?_ (Nat.le_max_left _ _)
    split
    · exact List.length_filter_le _ _
    · exact le_refl _
  · have hsorted : (sortedSet principal.devices).length = principal.devices.dedup.length :=
      List.length_insertionSort _ _
    exact (List.length_filter_le _ _).trans
      ((hsorted ▸ principal.devices.dedup_sublist.length_le).trans (Nat.le_max_right _ _))

theorem readDevices_refused {everyone : QueryPrincipal} (h : everyone.canReadAllDevices = true)
    (hnul : '\x00' ∈ strip platform.unicode.isSpace search) (limit : Int) :
    readDevices platform store everyone search limit = .error .internal := by
  rw [readDevices]
  dsimp only
  rw [if_pos h, searchDevices]
  dsimp only
  rw [strip_strip, if_pos hnul]

def storeOf (deviceId : List Char) : Store F := ⟨⟨[deviceId], [], []⟩, [], Keyed.empty _⟩

def principalFor (devices : List (List Char)) : QueryPrincipal := ⟨[], devices, [], none, none⟩

theorem SearchesAgree.single (h : SearchesAgree platform search) (hall : deviceId ≠ ['*']) :
    '\x00' ∉ strip platform.unicode.isSpace search ∧
      ((strip platform.unicode.isSpace search = [] ∨
        platform.ilike (['%'] ++ strip platform.unicode.isSpace search ++ ['%']) deviceId = true) ↔
      platform.unicode.lower (strip platform.unicode.isSpace search) <:+:
        platform.unicode.lower deviceId) := by
  let everyone := principalFor [['*']]
  let listed := principalFor [deviceId]
  let store : Store F := storeOf deviceId
  have heveryone : everyone.canReadAllDevices = true := rfl
  have hlisted : listed.canReadAllDevices = false := by
    simpa [listed, QueryPrincipal.canReadAllDevices, principalFor] using hall.symm
  have hlen : ((devicesFound platform store everyone search).length : Int) ≤ 1 := by
    exact_mod_cast length_devicesFound_le store everyone
  have hlen' : ((devicesFound platform store listed search).length : Int) ≤ 1 := by
    exact_mod_cast length_devicesFound_le store listed
  obtain ⟨found, found', hfound, hfound', hsame⟩ :=
    h store everyone listed 1 rfl (fun _ => Iff.rfl) (by decide) (by decide) hlen hlen'
  have hnul : '\x00' ∉ strip platform.unicode.isSpace search := by
    intro hmem
    rw [readDevices_refused heveryone hmem] at hfound
    cases hfound
  obtain ⟨_, heq, hmem⟩ := mem_readDevices hnul (by decide) (by decide) hlen
  obtain ⟨_, heq', hmem'⟩ := mem_readDevices hnul (by decide) (by decide) hlen'
  obtain rfl := Except.ok.inj (hfound.symm.trans heq)
  obtain rfl := Except.ok.inj (hfound'.symm.trans heq')
  have hdevice := hsame deviceId
  rw [hmem, hmem', mem_devicesFound_everyone heveryone, mem_devicesFound_listed hlisted] at hdevice
  exact ⟨hnul, by simpa [store, storeOf, listed, principalFor] using hdevice⟩

/-- The searches agree if and only if the text has neither a pattern character nor a NUL, and the
database and Python lower it alike in every id. -/
theorem searchesAgree_iff
    (hilike : ∀ pattern text, platform.ilike pattern text =
      Dialect.postgres.like (sqlLower pattern) (sqlLower text))
    (hsql : LowersTexts sqlLower) (hpython : LowersTexts platform.unicode.lower)
    (search : List Char) :
    SearchesAgree platform search ↔
      (∀ c ∈ strip platform.unicode.isSpace search, isPatternChar c = false ∧ c ≠ '\x00') ∧
      ∀ deviceId, deviceId ≠ ['*'] →
        (sqlLower (strip platform.unicode.isSpace search) <:+: sqlLower deviceId ↔
          platform.unicode.lower (strip platform.unicode.isSpace search) <:+:
            platform.unicode.lower deviceId) := by
  let query := strip platform.unicode.isSpace search
  have hfinds (hplain : ∀ c ∈ query, isPatternChar c = false) (deviceId : List Char) :
      (query = [] ∨ platform.ilike (['%'] ++ query ++ ['%']) deviceId = true) ↔
        sqlLower query <:+: sqlLower deviceId := by
    rw [ilike_plain hilike hsql hplain]
    exact or_iff_right_of_imp fun hnil => by simp [hnil, hsql.nil]
  constructor
  · intro h
    have hplain : ∀ c ∈ query, isPatternChar c = false := by
      intro c hmem
      by_contra hc
      rw [Bool.not_eq_false] at hc
      have hother : sampleDevice sqlLower query ≠ ['*'] :=
        fun heq => absurd (List.head_eq_of_cons_eq heq) (by decide)
      refine not_infix_sampleDevice hsql hpython hc hmem ((h.single hother).2.mp (.inr ?_))
      rw [hilike]
      exact hsql.like_sampleDevice query
    refine ⟨fun c hmem => ⟨hplain c hmem, ?_⟩, fun deviceId hother => ?_⟩
    · rintro rfl
      have hother : ([] : List Char) ≠ ['*'] := by decide
      exact (h.single hother).1 hmem
    · exact (hfinds hplain deviceId).symm.trans (h.single hother).2
  · rintro ⟨hquery, halike⟩ store everyone listed limit hall hdevices hlow hhigh hlen hlen'
    have hnul : '\x00' ∉ query := fun hmem => (hquery _ hmem).2 rfl
    obtain ⟨found, hfound, hmem⟩ := mem_readDevices hnul hlow hhigh hlen
    obtain ⟨found', hfound', hmem'⟩ := mem_readDevices hnul hlow hhigh hlen'
    refine ⟨found, found', hfound, hfound', fun deviceId => ?_⟩
    have heveryone : everyone.canReadAllDevices = true := by
      simp [QueryPrincipal.canReadAllDevices, hall]
    rw [hmem, hmem', mem_devicesFound_everyone heveryone]
    cases hlisted : listed.canReadAllDevices with
    | true => rw [mem_devicesFound_everyone hlisted]
    | false =>
      rw [mem_devicesFound_listed hlisted, hdevices, hfinds fun c hc => (hquery c hc).1]
      refine and_congr_right fun hdevice => halike deviceId ?_
      rintro rfl
      simp [QueryPrincipal.canReadAllDevices, hdevices, hdevice] at hlisted

theorem toLower_eq_iff {c : Char} (hc : isPatternChar c = true) (d : Char) :
    d.toLower = c ↔ d = c := by
  have hcode : c.toNat = 37 ∨ c.toNat = 95 ∨ c.toNat = 92 := by
    simp only [isPatternChar, Bool.or_eq_true, decide_eq_true_eq] at hc
    rcases hc with (rfl | rfl) | rfl <;> decide
  rw [← Char.toNat_inj, ← Char.toNat_inj, toLower_toNat]
  split <;> omega

theorem toLower_toLower (c : Char) : c.toLower.toLower = c.toLower := by
  rw [← Char.toNat_inj, toLower_toNat c.toLower, toLower_toNat, if_neg]
  split <;> omega

theorem lowersTexts_ascii : LowersTexts (List.map Char.toLower) where
  between text := by simp
  count c hc text := by
    rw [List.count_eq_countP, List.count_eq_countP, List.countP_map]
    refine List.countP_congr fun d _ => ?_
    simp [toLower_eq_iff hc d]
  lowered text c hc := by
    obtain ⟨d, -, rfl⟩ := List.mem_map.mp hc
    rw [List.map_singleton, toLower_toLower]
  kept text h := by
    rw [List.map_congr_left fun c hc => (List.cons.inj (h c hc)).1, List.map_id']
  a_kept := by decide

def asciiPlatform : Platform Int :=
  { wholePlatform with
    ilike := fun pattern text =>
      Dialect.postgres.like (pattern.map Char.toLower) (text.map Char.toLower)
    unicode := ⟨List.map Char.toLower, fun c => c = ' ', id⟩ }

theorem searchesAgree_upperCase : SearchesAgree asciiPlatform "ESP32".toList := by
  have hplain : (strip asciiPlatform.unicode.isSpace "ESP32".toList).all
      (fun c => isPatternChar c = false && c ≠ '\x00') = true := by decide +kernel
  refine (searchesAgree_iff (fun _ _ => rfl) lowersTexts_ascii lowersTexts_ascii _).mpr
    ⟨fun c hc => ?_, fun _ _ => Iff.rfl⟩
  simpa using List.all_eq_true.mp hplain c hc

/-- A search for `a_b` finds `axb` in the table, and not in the list of a principal. -/
theorem underscore_not_searchesAgree : ¬SearchesAgree asciiPlatform "a_b".toList := by
  intro h
  obtain ⟨found, found', hfound, hfound', hsame⟩ :=
    h (storeOf "axb".toList) (principalFor [['*']]) (principalFor ["axb".toList]) 1 rfl
      (fun _ => Iff.rfl) (by decide) (by decide) (by decide +kernel) (by decide +kernel)
  have heveryone : readDevices asciiPlatform (storeOf "axb".toList) (principalFor [['*']])
      "a_b".toList 1 = .ok ["axb".toList] := by rfl
  have hlisted : readDevices asciiPlatform (storeOf "axb".toList) (principalFor ["axb".toList])
      "a_b".toList 1 = .ok [] := by rfl
  obtain rfl := Except.ok.inj (heveryone.symm.trans hfound)
  obtain rfl := Except.ok.inj (hlisted.symm.trans hfound')
  exact List.not_mem_nil ((hsame _).mp List.mem_cons_self)

end Aetus.Query

import Mathlib.Data.List.Forall2
import RaizStack.EventSource

/-!
# What becomes of a base URL

The store keeps the normal form of what was typed, and every read makes
the normal form of that once more: `baseUrl` once, the current source
twice, the presets twice. So the URL stays the same exactly when the
normal form is its own.

It is not when stripping the trailing slashes uncovers something the
earlier steps have already been over. Nothing may be left of the host, and
then the scheme loses its slashes and is taken for a host; or the host may
end in a blank. `Survives` excludes both, and nothing else
(`normalize_idem_iff`).
-/

namespace RaizStack

namespace EventSourceStore

/-! ## The scheme -/

/-- The two branches that find a scheme. -/
def hasScheme (t : List Char) : Bool :=
  startsWithIgnoreCase t "http://".toList || startsWithIgnoreCase t "https://".toList

/-- What follows the scheme, if there is one. -/
def dropScheme (t : List Char) : List Char :=
  if startsWithIgnoreCase t "http://".toList then t.drop 7
  else if startsWithIgnoreCase t "https://".toList then t.drop 8
  else t

/-- `http` or `https`, case ignored. -/
def IsScheme (word : List Char) : Prop :=
  List.Forall₂ (fun c d => sameIgnoringCase c d = true) word "http".toList
    ∨ List.Forall₂ (fun c d => sameIgnoringCase c d = true) word "https".toList

theorem startsWithIgnoreCase_iff {l p : List Char} :
    startsWithIgnoreCase l p = true
      ↔ ∃ w rest, l = w ++ rest ∧ List.Forall₂ (fun c d => sameIgnoringCase c d = true) w p := by
  induction p generalizing l with
  | nil =>
      have hnil : startsWithIgnoreCase l [] = true := by
        cases l with
        | nil => rfl
        | cons c l => rfl
      exact iff_of_true hnil ⟨[], l, rfl, .nil⟩
  | cons d p ih =>
      cases l with
      | nil =>
          refine iff_of_false Bool.false_ne_true ?_
          rintro ⟨w, rest, hl, hw⟩
          cases hw with
          | cons _ _ => cases hl
      | cons c l =>
          rw [startsWithIgnoreCase, Bool.and_eq_true, ih]
          constructor
          · rintro ⟨hc, w, rest, rfl, hw⟩
            exact ⟨c :: w, rest, rfl, .cons hc hw⟩
          · rintro ⟨w, rest, hl, hw⟩
            cases hw with
            | cons hc hw =>
                obtain ⟨rfl, rfl⟩ := List.cons.inj hl
                exact ⟨hc, _, rest, rfl, hw⟩

/-- Nothing but itself is a colon or a slash. -/
theorem sameIgnoringCase_mark {c d : Char} (hd : d = ':' ∨ d = '/')
    (h : sameIgnoringCase c d = true) : c = d := by
  have hs : (d == 's') = false := by
    rcases hd with rfl | rfl
    · rfl
    · rfl
  rw [sameIgnoringCase, hs, Bool.false_and, Bool.or_false, beq_iff_eq] at h
  have hlow := congrArg Char.toNat h
  rw [Text.toNat_toLower] at hlow
  have hd' : d.toNat = 58 ∨ d.toNat = 47 := by
    rcases hd with rfl | rfl
    · exact .inl rfl
    · exact .inr rfl
  refine Char.toNat_inj.mp ?_
  split at hlow
  · omega
  · exact hlow

/-- A letter of a scheme is neither a blank nor a slash. -/
theorem sameIgnoringCase_letter {c d : Char} (hd : 97 ≤ d.toNat ∧ d.toNat ≤ 122)
    (h : sameIgnoringCase c d = true) : Text.isWhitespace c = false ∧ c ≠ '/' := by
  rw [sameIgnoringCase, Bool.or_eq_true, Bool.and_eq_true, beq_iff_eq, beq_iff_eq] at h
  rcases h with h | ⟨-, hc⟩
  · have hlow := congrArg Char.toNat h
    rw [Text.toNat_toLower] at hlow
    have hrange : 65 ≤ c.toNat ∧ c.toNat ≤ 122 := by
      split at hlow
      · omega
      · omega
    refine ⟨?_, ?_⟩
    · simp only [Text.isWhitespace, Bool.or_eq_false_iff, Bool.and_eq_false_iff,
        decide_eq_false_iff_not, beq_eq_false_iff_ne]
      omega
    · rintro rfl
      exact absurd hrange (by decide)
  · have hc' : c = 'ſ' := by simpa using hc
    subst hc'
    exact ⟨by decide, by decide⟩

/-- A scheme is letters only. -/
theorem IsScheme.letter {word : List Char} (h : IsScheme word) {c : Char} (hc : c ∈ word) :
    Text.isWhitespace c = false ∧ c ≠ '/' := by
  have hof : ∀ {w p : List Char}, (p.all fun d => 97 ≤ d.toNat ∧ d.toNat ≤ 122) = true →
      List.Forall₂ (fun c d => sameIgnoringCase c d = true) w p →
      ∀ c ∈ w, Text.isWhitespace c = false ∧ c ≠ '/' := by
    intro w p hp hw
    induction hw with
    | nil => exact fun c hc => absurd hc List.not_mem_nil
    | cons hsame _ ih =>
        rw [List.all_cons, Bool.and_eq_true] at hp
        have hletter := sameIgnoringCase_letter (of_decide_eq_true hp.1) hsame
        exact List.forall_mem_cons.mpr ⟨hletter, ih hp.2⟩
  rcases h with h | h
  · exact hof (by decide) h c hc
  · exact hof (by decide) h c hc

theorem IsScheme.length_pos {word : List Char} (h : IsScheme word) : 0 < word.length := by
  rcases h with h | h
  · rw [h.length_eq]
    decide
  · rw [h.length_eq]
    decide

theorem startsWithIgnoreCase_of {word rest p : List Char}
    (h : List.Forall₂ (fun c d => sameIgnoringCase c d = true) word p) :
    startsWithIgnoreCase (word ++ "://".toList ++ rest) (p ++ "://".toList) = true := by
  have hmarks : List.Forall₂ (fun c d => sameIgnoringCase c d = true) "://".toList "://".toList :=
    .cons (by decide) (.cons (by decide) (.cons (by decide) .nil))
  exact startsWithIgnoreCase_iff.mpr ⟨_, rest, rfl, List.rel_append h hmarks⟩

/-- A scheme with its marks is found, whatever follows. -/
theorem IsScheme.hasScheme {word : List Char} (h : IsScheme word) (rest : List Char) :
    hasScheme (word ++ "://".toList ++ rest) = true := by
  rw [EventSourceStore.hasScheme, Bool.or_eq_true]
  rcases h with h | h
  · exact .inl (startsWithIgnoreCase_of h)
  · exact .inr (startsWithIgnoreCase_of h)

/-- What was found is a scheme with its marks. -/
theorem exists_word_of_startsWith {t p : List Char}
    (h : startsWithIgnoreCase t (p ++ "://".toList) = true) :
    ∃ word, List.Forall₂ (fun c d => sameIgnoringCase c d = true) word p
      ∧ t = word ++ "://".toList ++ t.drop (p.length + 3) := by
  obtain ⟨w, rest, rfl, hw⟩ := startsWithIgnoreCase_iff.mp h
  obtain ⟨word, marks, rfl, hword, hmarks⟩ : ∃ word marks, w = word ++ marks
      ∧ List.Forall₂ (fun c d => sameIgnoringCase c d = true) word p
      ∧ List.Forall₂ (fun c d => sameIgnoringCase c d = true) marks "://".toList := by
    have htake := List.forall₂_take_append w p "://".toList hw
    have hdrop := List.forall₂_drop_append w p "://".toList hw
    exact ⟨_, _, (List.take_append_drop p.length w).symm, htake, hdrop⟩
  have hexact : marks = "://".toList := by
    cases hmarks with
    | cons hc hmarks =>
        cases hmarks with
        | cons hs hmarks =>
            cases hmarks with
            | cons hs' hmarks =>
                cases hmarks with
                | nil =>
                    rw [sameIgnoringCase_mark (.inl rfl) hc, sameIgnoringCase_mark (.inr rfl) hs,
                      sameIgnoringCase_mark (.inr rfl) hs']
                    rfl
  refine ⟨word, hword, ?_⟩
  have hlen : p.length + 3 = (word ++ marks).length := by
    rw [List.length_append, hword.length_eq, hexact]
    rfl
  rw [hlen, List.drop_left, hexact]

/-! ## Three steps -/

/-- The middle step: a text with a scheme. -/
def withScheme (t : List Char) : List Char :=
  if hasScheme t then t else "http://".toList ++ t

theorem normalizeBaseUrl_of_blank {s : String} (h : Text.trim s.toList = []) :
    normalizeBaseUrl (some s) = defaultBaseUrl := by
  rw [normalizeBaseUrl, Option.getD_some, h]
  rfl

/-- A text that is not blank has a scheme put to it, found or added. -/
theorem withScheme_split (t : List Char) :
    ∃ word, IsScheme word ∧ withScheme t = word ++ "://".toList ++ dropScheme t := by
  by_cases hhttp : startsWithIgnoreCase t "http://".toList = true
  · obtain ⟨word, hword, ht⟩ := exists_word_of_startsWith (p := "http".toList) hhttp
    have hdrop : dropScheme t = t.drop 7 := if_pos hhttp
    refine ⟨word, .inl hword, ?_⟩
    rw [withScheme, hasScheme, hhttp, Bool.true_or, if_pos rfl, hdrop]
    exact ht
  · by_cases hhttps : startsWithIgnoreCase t "https://".toList = true
    · obtain ⟨word, hword, ht⟩ := exists_word_of_startsWith (p := "https".toList) hhttps
      have hdrop : dropScheme t = t.drop 8 := by
        rw [dropScheme, if_neg hhttp, if_pos hhttps]
      refine ⟨word, .inr hword, ?_⟩
      rw [withScheme, hasScheme, hhttps, Bool.or_true, if_pos rfl, hdrop]
      exact ht
    · have hdrop : dropScheme t = t := by
        rw [dropScheme, if_neg hhttp, if_neg hhttps]
      have hnone : ¬ hasScheme t = true := by
        rw [hasScheme, Bool.or_eq_true]
        exact not_or.mpr ⟨hhttp, hhttps⟩
      refine ⟨"http".toList, .inl (by decide), ?_⟩
      rw [withScheme, if_neg hnone, hdrop]
      rfl

/-- The slashes at the end of the whole text. -/
theorem trimEndSlash_split (word rest : List Char) :
    trimEndSlash (word ++ "://".toList ++ rest)
      = if trimEndSlash rest = [] then word ++ [':']
        else word ++ "://".toList ++ trimEndSlash rest := by
  have hbare : trimEndSlash (word ++ "://".toList) = word ++ [':'] := by
    have hmarks : ("://".toList).rdropWhile (· == '/') = [':'] := by decide
    rw [trimEndSlash, Text.rdropWhile_append, hmarks, if_neg (List.cons_ne_nil _ _)]
  rw [← hbare]
  exact Text.rdropWhile_append _ _ _

theorem trimEndSlash_withScheme_ne_nil (t : List Char) : trimEndSlash (withScheme t) ≠ [] := by
  obtain ⟨word, -, ht⟩ := withScheme_split t
  rw [ht, trimEndSlash_split]
  split
  · simp
  · simp

theorem toList_normalizeBaseUrl {s : String} (h : Text.trim s.toList ≠ []) :
    (normalizeBaseUrl (some s)).toList = trimEndSlash (withScheme (Text.trim s.toList)) := by
  have hscheme : (if startsWithIgnoreCase (Text.trim s.toList) "http://".toList
      then Text.trim s.toList
      else if startsWithIgnoreCase (Text.trim s.toList) "https://".toList then Text.trim s.toList
      else "http://".toList ++ Text.trim s.toList) = withScheme (Text.trim s.toList) := by
    rw [withScheme, hasScheme]
    cases startsWithIgnoreCase (Text.trim s.toList) "http://".toList with
    | true => rfl
    | false => rfl
  rw [normalizeBaseUrl, Option.getD_some, if_neg h]
  simp only [hscheme]
  rw [if_neg (trimEndSlash_withScheme_ne_nil _), String.toList_ofList]

/-! ## The steps again -/

/-- Nothing is trimmed off in front of a scheme. -/
theorem trim_scheme {word : List Char} (hword : IsScheme word) (m : List Char) :
    Text.trim (word ++ m) = (word ++ m).rdropWhile Text.isWhitespace := by
  cases word with
  | nil => exact absurd hword.length_pos (lt_irrefl 0)
  | cons c word =>
      have hc : Text.isWhitespace c = false := (hword.letter List.mem_cons_self).1
      rw [Text.trim, List.cons_append, List.dropWhile_cons, hc]
      rfl

/-- A scheme that lost its slashes is taken for a host. -/
theorem normalize_bare {word : List Char} (hword : IsScheme word) {s : String}
    (hs : s.toList = word ++ [':']) :
    (normalizeBaseUrl (some s)).toList = "http://".toList ++ (word ++ [':']) := by
  have htrim : Text.trim s.toList = word ++ [':'] := by
    rw [hs, trim_scheme hword]
    exact List.rdropWhile_concat_neg _ _ _ (by decide)
  have hslash : '/' ∉ word ++ [':'] := by
    intro hmem
    rcases List.mem_append.mp hmem with hmem | hmem
    · exact (hword.letter hmem).2 rfl
    · exact absurd hmem (by decide)
  have hnot : ∀ p : List Char,
      startsWithIgnoreCase (word ++ [':']) (p ++ "://".toList) = false := by
    intro p
    refine Bool.eq_false_iff.mpr fun hstarts => ?_
    obtain ⟨word', -, heq⟩ := exists_word_of_startsWith hstarts
    refine hslash ?_
    rw [heq]
    simp
  have hnone : hasScheme (word ++ [':']) = false :=
    Bool.or_eq_false_iff.mpr ⟨hnot "http".toList, hnot "https".toList⟩
  have hend : trimEndSlash ("http://".toList ++ (word ++ [':']))
      = "http://".toList ++ (word ++ [':']) := by
    rw [← List.append_assoc]
    exact List.rdropWhile_concat_neg _ _ _ (by decide)
  rw [toList_normalizeBaseUrl (by simp [htrim]), htrim, withScheme, if_neg (by simp [hnone]), hend]

/-- Of a host, only the blanks at its end go. -/
theorem normalize_host {word : List Char} (hword : IsScheme word) {s : String} {h : List Char}
    (hs : s.toList = word ++ "://".toList ++ h) :
    (normalizeBaseUrl (some s)).toList
      = trimEndSlash (word ++ "://".toList ++ h.rdropWhile Text.isWhitespace) := by
  have htrim : Text.trim s.toList = word ++ "://".toList ++ h.rdropWhile Text.isWhitespace := by
    have hmarks : (word ++ "://".toList).rdropWhile Text.isWhitespace = word ++ "://".toList := by
      rw [show "://".toList = [':', '/'] ++ ['/'] from rfl, ← List.append_assoc]
      exact List.rdropWhile_concat_neg _ _ _ (by decide)
    rw [hs, List.append_assoc, trim_scheme hword, ← List.append_assoc, Text.rdropWhile_append,
      hmarks]
    split
    · next hnil => rw [hnil, List.append_nil]
    · rfl
  rw [toList_normalizeBaseUrl (by simp [htrim]), htrim, withScheme, if_pos (hword.hasScheme _)]

/-! ## Twice is once -/

/-- The host of what was typed, without the slashes behind it. -/
def hostOf (s : String) : List Char :=
  trimEndSlash (dropScheme (Text.trim s.toList))

/-- Nothing but blanks was typed, or there is a host and it does not end in
a blank. -/
def Survives (s : String) : Prop :=
  Text.trim s.toList = [] ∨ (hostOf s).getLast?.map Text.isWhitespace = some false

instance (s : String) : Decidable (Survives s) :=
  inferInstanceAs (Decidable (_ ∨ _))

/-- **Exactly these texts have a normal form that is its own.** -/
theorem normalize_idem_iff (s : String) :
    normalizeBaseUrl (some (normalizeBaseUrl (some s))) = normalizeBaseUrl (some s)
      ↔ Survives s := by
  by_cases hblank : Text.trim s.toList = []
  · have hdefault : normalizeBaseUrl (some defaultBaseUrl) = defaultBaseUrl := by decide +kernel
    rw [normalizeBaseUrl_of_blank hblank]
    exact iff_of_true hdefault (.inl hblank)
  · obtain ⟨word, hword, hsplit⟩ := withScheme_split (Text.trim s.toList)
    have honce := toList_normalizeBaseUrl hblank
    rw [hsplit, trimEndSlash_split] at honce
    change _ = if hostOf s = [] then _ else word ++ "://".toList ++ hostOf s at honce
    rw [← String.toList_inj, Survives, or_iff_right hblank]
    by_cases hhost : hostOf s = []
    · -- no host: the scheme becomes one
      rw [if_pos hhost] at honce
      rw [normalize_bare hword honce, honce, hhost]
      refine iff_of_false (fun heq => ?_) (by simp)
      have hlen := congrArg List.length heq
      rw [List.length_append] at hlen
      exact absurd hlen (by simp)
    · rw [if_neg hhost] at honce
      rw [normalize_host hword honce, honce]
      obtain ⟨front, c, hfront⟩ : ∃ front c, hostOf s = front ++ [c] :=
        ⟨_, _, (List.dropLast_append_getLast hhost).symm⟩
      rw [hfront, List.getLast?_concat, Option.map_some, Option.some.injEq]
      by_cases hc : Text.isWhitespace c = true
      · -- the blank goes, and nothing comes back
        rw [List.rdropWhile_concat_pos _ _ _ hc, hc]
        refine iff_of_false (fun heq => ?_) Bool.noConfusion
        have hslash :
            (trimEndSlash (word ++ "://".toList ++ front.rdropWhile Text.isWhitespace)).length
              ≤ (word ++ "://".toList ++ front.rdropWhile Text.isWhitespace).length :=
          (List.rdropWhile_prefix _ _).length_le
        have hfewer : (front.rdropWhile Text.isWhitespace).length ≤ front.length :=
          (List.rdropWhile_prefix _ _).length_le
        have hlen := congrArg List.length heq
        simp only [List.length_append, List.length_singleton] at hlen hslash
        omega
      · have hkeep : trimEndSlash (hostOf s) = hostOf s := List.rdropWhile_idempotent _ _
        rw [List.rdropWhile_concat_neg _ _ _ hc, ← hfront, trimEndSlash_split, hkeep,
          if_neg hhost]
        exact iff_of_true rfl (Bool.eq_false_iff.mpr hc)

/-! ## The store -/

/-- What may happen to the store after a URL was saved. -/
inductive StoreOp where
  | selectPreset (id : String)
  /-- The process starts again. -/
  | reload

def StoreOp.apply (st : EventSourceStore) : StoreOp → EventSourceStore
  | .selectPreset id => st.selectPreset id
  | .reload => ofPrefs st.prefs

/-- Every place that answers with a base URL answers `url`. -/
structure Shows (st : EventSourceStore) (url : String) : Prop where
  stored : st.prefs.baseUrl = some url
  baseUrl : st.baseUrl = url
  value : st.value.baseUrl = url
  presets : ∀ preset ∈ st.presets, preset.baseUrl = url

theorem resolve_baseUrl (id baseUrl : Option String) :
    (resolve id baseUrl).baseUrl = normalizeBaseUrl (some (normalizeBaseUrl baseUrl)) := by
  unfold resolve
  dsimp only
  split
  · simp only [EventSource.rpcSimulation]
  · simp only [EventSource.raizMemory]

theorem presets_baseUrl {st : EventSourceStore} {preset : EventSource} (h : preset ∈ st.presets) :
    preset.baseUrl = normalizeBaseUrl (some st.baseUrl) := by
  rcases List.mem_cons.mp h with rfl | h
  · simp only [EventSource.raizMemory]
  · rw [List.mem_singleton.mp h]
    simp only [EventSource.rpcSimulation]

theorem baseUrl_ofPrefs {prefs : SourcePrefs} {url : String} (hurl : prefs.baseUrl = some url)
    (hself : normalizeBaseUrl (some url) = url) : (ofPrefs prefs).baseUrl = url := by
  change normalizeBaseUrl (some (prefs.baseUrl.getD defaultBaseUrl)) = url
  rw [hurl, Option.getD_some, hself]

/-- Over preferences with a URL that is its own normal form. -/
theorem shows_ofPrefs {prefs : SourcePrefs} {url : String} (hurl : prefs.baseUrl = some url)
    (hself : normalizeBaseUrl (some url) = url) : Shows (ofPrefs prefs) url where
  stored := hurl
  baseUrl := baseUrl_ofPrefs hurl hself
  value := by
    change (resolve prefs.sourceId prefs.baseUrl).baseUrl = url
    rw [resolve_baseUrl, hurl, hself, hself]
  presets := by
    intro preset hpreset
    rw [presets_baseUrl hpreset, baseUrl_ofPrefs hurl hself, hself]

theorem shows_apply {st : EventSourceStore} {url : String} (h : Shows st url)
    (hself : normalizeBaseUrl (some url) = url) (op : StoreOp) : Shows (op.apply st) url := by
  cases op with
  | selectPreset id =>
      have hurl : ({ st.prefs with sourceId := some id } : SourcePrefs).baseUrl = some url :=
        h.stored
      exact shows_ofPrefs hurl hself
  | reload => exact shows_ofPrefs h.stored hself

theorem shows_run {st : EventSourceStore} {url : String} (h : Shows st url)
    (hself : normalizeBaseUrl (some url) = url) (ops : List StoreOp) :
    Shows (ops.foldl StoreOp.apply st) url := by
  induction ops generalizing st with
  | nil => exact h
  | cons op ops ih => exact ih (shows_apply h hself op)

/-- **The URL saved is the URL kept**, in every store and whatever is
selected after it, exactly for the texts that have a host to end in. -/
theorem baseUrl_survives_iff (s : String) :
    (normalizeBaseUrl (some (normalizeBaseUrl (some s))) = normalizeBaseUrl (some s)
        ∧ ∀ (st : EventSourceStore) (ops : List StoreOp),
            Shows (ops.foldl StoreOp.apply (st.setBaseUrl s)) (normalizeBaseUrl (some s)))
      ↔ Survives s := by
  rw [← normalize_idem_iff]
  refine ⟨fun h => h.1, fun h => ⟨h, fun st ops => ?_⟩⟩
  have hsaved : Shows (st.setBaseUrl s) (normalizeBaseUrl (some s)) := shows_ofPrefs rfl h
  exact shows_run hsaved h ops

/-- A bare scheme. What is stored is `http:`, what is read is not. -/
theorem bare_scheme_doubled :
    ¬ ∀ s : String,
      normalizeBaseUrl (some (normalizeBaseUrl (some s))) = normalizeBaseUrl (some s) := by
  intro h
  have htwice : normalizeBaseUrl (some (normalizeBaseUrl (some "http://"))) = "http://http:" := by
    decide +kernel
  have honce : normalizeBaseUrl (some "http://") = "http:" := by decide +kernel
  exact absurd (htwice.symm.trans ((h "http://").trans honce)) (by decide)

end EventSourceStore

end RaizStack

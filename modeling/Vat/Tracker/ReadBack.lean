import Vat.Delimited.SelfDelimiting
import Vat.Tracker.IssueBody

/-!
# The template read back

The required block is read by the standard grammar wherever it stands behind a character and blank
lines. The relaxed form of that grammar can read the status line in one way only, as the list of all
statuses, and the list stands for the first of them.

## Main results

* `strip_status_of_mem`, `exists_mem_openBlock`: how the relaxed grammar reads the block.
* `matchesAfter_openBlock`, `exists_matches_openBlock`: the block is where a block starts.
* `parseVatBlock_requiredText`: the block is read, whatever stands before and after it.
-/

namespace Vat

open Delimited Regex VatRegex

variable [Unicode] [UpperCase] [CharTables] [TextMatching]

/-! ### The status line of the template -/

omit [UpperCase] [CharTables] in
theorem normalizeStatus_falsePositive :
    normalizeStatus (str "false-positive") = some (str "False Positive") := by
  have hstrip : Str.strip (str "false-positive") = str "false-positive" := by decide
  have hlower : Unicode.lower (str "false-positive") = str "false-positive" :=
    Unicode.lower_eq_self (by decide)
  have hkey : replaceChar '_' '-' (replaceChar ' ' '-' (str "false-positive")) =
      str "false-positive" := by decide
  have hne : str "false-positive" ≠ [] := by decide
  have hmap : statusMap.lookup (str "false-positive") = some (str "False Positive") := by decide
  rw [normalizeStatus, hstrip, if_neg hne, hlower, hkey]
  simp only [hmap, Option.some_or]

omit [UpperCase] [CharTables] in
/-- The list of statuses to choose from is read as its first one. -/
theorem extractStatus_statusOptions {raw : Str} (h : Str.strip raw = statusOptions) :
    extractStatus raw = some (str "False Positive") := by
  obtain ⟨parts, hparts⟩ : ∃ parts,
      splitRuns separatesStatuses statusOptions = str "false-positive" :: parts := ⟨_, rfl⟩
  rw [extractStatus, h, hparts, List.findSome?_cons, normalizeStatus_falsePositive]
  rfl

/-! ### Literals -/

omit [UpperCase] [CharTables] [TextMatching] in
/-- An ASCII text agrees with its lower case. -/
theorem forall₂_foldsTo {w : String} {u : Str} (hu : (u.all fun c => c.toNat < 128) = true)
    (hw : u.map Char.toLower = str w) :
    List.Forall₂ (fun c d => Pattern.foldsTo c d) (str w) u := by
  rw [← hw, List.forall₂_map_left_iff, List.forall₂_same]
  exact fun c hc => Pattern.foldsTo_toLower (of_decide_eq_true (List.all_eq_true.mp hu c hc))

omit [UpperCase] [CharTables] [TextMatching] in
/-- An ASCII text is matched by the literal in its lower case. -/
theorem run_lit_append {w : String} {u t : Str} {g : Groups Char VatGroup}
    (hu : (u.all fun c => c.toNat < 128) = true) (hw : u.map Char.toLower = str w) :
    run (lit w) g (u ++ t) = [(g, t)] := by
  rw [lit, run_literal_append (forall₂_foldsTo hu hw)]

omit [UpperCase] [CharTables] [TextMatching] in
theorem mem_run_lit_append {w : String} {u t : Str} {g : Groups Char VatGroup}
    (hu : (u.all fun c => c.toNat < 128) = true) (hw : u.map Char.toLower = str w) :
    (g, t) ∈ run (lit w) g (u ++ t) := by
  rw [run_lit_append hu hw]
  exact List.mem_singleton_self _

omit [Unicode] [UpperCase] [CharTables] [TextMatching] in
theorem mem_run_spaces_blank {t : Str} {g : Groups Char VatGroup} :
    (g, t) ∈ run spaces g (' ' :: t) :=
  mem_run_many.mpr ⟨rfl, [' '], List.all_eq_true.mp (by decide), rfl⟩

omit [Unicode] [UpperCase] [CharTables] [TextMatching] in
theorem mem_run_spaces_nil {t : Str} {g : Groups Char VatGroup} : (g, t) ∈ run spaces g t :=
  mem_run_many.mpr ⟨rfl, [], by simp, rfl⟩

omit [Unicode] [UpperCase] [CharTables] [TextMatching] in
theorem mem_run_newline_cons {t : Str} {g : Groups Char VatGroup} :
    (g, t) ∈ run newline g ('\n' :: t) := mem_run_one.mpr ⟨rfl, '\n', rfl, rfl⟩

omit [UpperCase] [CharTables] [TextMatching] in
/-- A literal reads as many characters as it has. -/
theorem mem_run_lit {w : String} {u t t' : Str} {g g' : Groups Char VatGroup}
    (h : (g', t') ∈ run (lit w) g (u ++ t)) (hlen : u.length = (str w).length) :
    g' = g ∧ t' = t := by
  obtain ⟨rfl, v, hv, heq⟩ := mem_run_literal h
  exact ⟨rfl, (List.append_inj heq (hlen.trans hv.length_eq)).2.symm⟩

omit [Unicode] [UpperCase] [CharTables] [TextMatching] in
theorem mem_run_newline {g g' : Groups Char VatGroup} {s t : Str}
    (h : (g', t) ∈ run newline g s) : g' = g ∧ s = '\n' :: t := by
  obtain ⟨rfl, c, hc, rfl⟩ := mem_run_one.mp h
  exact ⟨rfl, by rw [eq_of_beq hc]⟩

omit [Unicode] [UpperCase] [CharTables] [TextMatching] in
/-- At the end of the text nothing more has to follow. -/
theorem mem_run_endsBefore_nil (ends : List VatRegex) {g : Groups Char VatGroup} :
    (g, []) ∈ run (endsBefore ends) g [] := by
  have alternatives : run (ends.foldr (fun e r => .alt (.seq newline e) r) .atEnd) g [] =
      [(g, [])] := by
    induction ends with
    | nil => rfl
    | cons e ends ih =>
      rw [List.foldr_cons, run_alt, ih, run_seq, newline, run_one_nil]
      rfl
  simp [endsBefore, run_ahead, alternatives]

/-! ### Lines -/

section Lines

omit [Unicode] [UpperCase] [CharTables] [TextMatching]

/-- A word alone on the rest of its line is read as a word before a line end in one way. -/
theorem eq_of_word_line {word word' sp sp' t rest : Str} (hne : word ≠ []) (hne' : word' ≠ [])
    (hword : ∀ c ∈ word, Str.isSpace c = false) (hword' : ∀ c ∈ word', Str.isSpace c = false)
    (hsp : ∀ c ∈ sp, Str.isSpace c) (hsp' : ∀ c ∈ sp', Str.isSpace c)
    (hrest : ∀ c ∈ rest.head?, Str.isSpace c = false)
    (h : ' ' :: (word ++ '\n' :: rest) = sp ++ (word' ++ (sp' ++ '\n' :: t))) : t = rest := by
  have blanks : ∀ {w : Str} {r : Str}, w ≠ [] → (∀ c ∈ w, Str.isSpace c = false) →
      Stops {c | Str.isSpace c = false} (w ++ r) := by
    rintro (_ | ⟨c, w⟩) r hw hc
    · exact absurd rfl hw
    · exact stops_cons.mpr (hc c List.mem_cons_self)
  have not_blank : ∀ {c : Char}, Str.isSpace c → ¬ Str.isSpace c = false := fun h h' => by
    simp [h] at h'
  have blank_end : Str.isSpace '\n' = true := by decide
  have word_eq : word ++ '\n' :: rest = word' ++ (sp' ++ '\n' :: t) :=
    (splits_of_notMem (x := [' ']) (D := {c | Str.isSpace c = false})
      (fun c hc => not_blank (by rw [List.mem_singleton.mp hc]; decide))
      (fun c hc => not_blank (hsp c hc)) (blanks hne hword) (blanks hne' hword') h).2
  have ends : '\n' :: rest = sp' ++ '\n' :: t := by
    refine (splits_of_notMem (D := {c | Str.isSpace c = true})
      (fun c hc h => not_blank h (hword c hc)) (fun c hc h => not_blank h (hword' c hc))
      (stops_cons.mpr blank_end) ?_ word_eq).2
    cases sp' with
    | nil => exact stops_cons.mpr blank_end
    | cons c sp' => exact stops_cons.mpr (hsp' c List.mem_cons_self)
  cases sp' with
  | nil => exact (List.cons.inj ends).2.symm
  | cons c sp' =>
    -- the next line would start with a blank
    obtain ⟨rfl, hline⟩ := List.cons.inj ends
    cases sp' with
    | nil => exact absurd (hrest '\n' (by rw [hline]; rfl)) (by decide)
    | cons d sp' =>
      have hd := hsp' d (by simp)
      exact absurd (hrest d (by rw [hline]; rfl)) (by simp [hd])

/-- A text without line ends that is followed by blanks and a line end is the whole line, if the
line does not end in a blank. -/
theorem eq_of_line {line text sp t rest : Str} {last : Char} (hlast : line.getLast? = some last)
    (hblank : Str.isSpace last = false) (hline : '\n' ∉ line) (htext : '\n' ∉ text)
    (hsp : ∀ c ∈ sp, Str.isSpace c) (h : text ++ (sp ++ '\n' :: t) = line ++ '\n' :: rest) :
    text = line := by
  rcases List.append_eq_append_iff.mp h with ⟨w, rfl, hw⟩ | ⟨w, rfl, hw⟩
  · -- what is left of the line is blank
    have blank : ∀ c ∈ w, Str.isSpace c := by
      rcases List.append_eq_append_iff.mp hw with ⟨v, rfl, hv⟩ | ⟨v, rfl, -⟩
      · cases v with
        | nil => simpa using hsp
        | cons c v =>
          obtain ⟨rfl, -⟩ := List.cons.inj hv
          simp at hline
      · exact fun c hc => hsp c (by simp [hc])
    cases w using List.reverseRecOn with
    | nil => simp
    | append_singleton w c =>
      obtain rfl : c = last := by simpa using hlast
      exact absurd (blank c (by simp)) (by simp [hblank])
  · cases w with
    | nil => simp
    | cons c w =>
      obtain ⟨rfl, -⟩ := List.cons.inj hw
      simp at htext

/-- The list of statuses after a blank is read whole, with or without the blank. -/
theorem strip_of_status_line {sp status sp' t rest : Str} (hsp : ∀ c ∈ sp, Str.isSpace c)
    (hstatus : ∀ c ∈ status, c ≠ '\n') (hsp' : ∀ c ∈ sp', Str.isSpace c)
    (h : ' ' :: (statusOptions ++ '\n' :: rest) = sp ++ (status ++ (sp' ++ '\n' :: t))) :
    Str.strip status = statusOptions := by
  have hnot : '\n' ∉ status := fun hmem => hstatus '\n' hmem rfl
  cases sp with
  | nil =>
    have : status = ' ' :: statusOptions :=
      eq_of_line (show (' ' :: statusOptions).getLast? = some 'e' by decide) (by decide) (by decide)
        hnot hsp' h.symm
    rw [this]
    decide
  | cons c sp =>
    obtain ⟨rfl, hline⟩ := List.cons.inj h
    cases sp with
    | nil =>
      have : status = statusOptions :=
        eq_of_line (show statusOptions.getLast? = some 'e' by decide) (by decide) (by decide) hnot
          hsp' hline.symm
      rw [this]
      decide
    | cons d sp =>
      obtain rfl : 'f' = d := (List.cons.inj hline).1
      exact absurd (hsp 'f' (by simp)) (by decide)

end Lines

/-! ### The block of the template -/

/-- A block with the statuses to choose from, up to its justification, and what follows. -/
def openBlock (cveId rest : Str) : Str :=
  str "[VAT]" ++ ' ' :: (cveId ++ '\n' :: (str "status:" ++ ' ' :: (statusOptions ++
    '\n' :: (str "justification:" ++ rest))))

omit [UpperCase] [CharTables] [TextMatching] in
/-- However a block with the statuses to choose from is read, its status is all of them. -/
theorem strip_status_of_mem {cveId rest t : Str} {g g' : Groups Char VatGroup}
    (hne : cveId ≠ []) (hcve : ∀ c ∈ cveId, Str.isSpace c = false)
    (h : (g', t) ∈ run vatBlockRelaxedRe g (openBlock cveId rest)) :
    Str.strip (groupText g' .status) = statusOptions := by
  -- the identifier and the end of its line
  obtain ⟨g₁, t₁, h₁, r₁⟩ := mem_run_all.mp h
  obtain ⟨rfl, rfl⟩ := mem_run_lit (u := str "[VAT]") h₁ (by decide)
  obtain ⟨g₂, t₂, h₂, r₂⟩ := mem_run_all.mp r₁
  obtain ⟨rfl, sp, hsp, hw⟩ := mem_run_many.mp h₂
  obtain ⟨g₃, t₃, h₃, r₃⟩ := mem_run_all.mp r₂
  obtain ⟨g₃', t₃', h₃', he₃⟩ := mem_run_group.mp h₃
  obtain ⟨rfl, word, hword, hword', rfl⟩ := mem_run_plus.mp h₃'
  obtain ⟨-, rfl⟩ := Prod.mk.inj he₃
  obtain ⟨g₄, t₄, h₄, r₄⟩ := mem_run_all.mp r₃
  obtain ⟨rfl, sp', hsp', rfl⟩ := mem_run_many.mp h₄
  obtain ⟨g₅, t₅, h₅, r₅⟩ := mem_run_all.mp r₄
  obtain ⟨rfl, rfl⟩ := mem_run_newline h₅
  obtain rfl := eq_of_word_line hne hword hcve (by simpa using hword') hsp hsp'
    (fun c hc => by obtain rfl : 's' = c := Option.some.inj hc; decide) hw
  -- the status line
  obtain ⟨g₆, t₆, h₆, r₆⟩ := mem_run_all.mp r₅
  obtain ⟨rfl, rfl⟩ := mem_run_lit (u := str "status:") h₆ (by decide)
  obtain ⟨g₇, t₇, h₇, r₇⟩ := mem_run_all.mp r₆
  obtain ⟨rfl, sp₇, hsp₇, hw₇⟩ := mem_run_many.mp h₇
  obtain ⟨g₈, t₈, h₈, r₈⟩ := mem_run_all.mp r₇
  obtain ⟨g₈', t₈', h₈', he₈⟩ := mem_run_group.mp h₈
  obtain ⟨rfl, status, -, hstatus, rfl⟩ := mem_run_plus.mp h₈'
  obtain ⟨rfl, rfl⟩ := Prod.mk.inj he₈
  have kept : g' .status = some status :=
    (groups_of_mem_run (by simp [names, lit, spaces, newline, anything, opt, strictControls,
      endsBefore]) r₈).trans (by simp)
  obtain ⟨g₉, t₉, h₉, r₉⟩ := mem_run_all.mp r₈
  obtain ⟨-, sp₉, hsp₉, rfl⟩ := mem_run_many.mp h₉
  obtain ⟨g₁₀, t₁₀, h₁₀, -⟩ := mem_run_all.mp r₉
  obtain ⟨-, rfl⟩ := mem_run_newline h₁₀
  rw [groupText, kept, Str.orEmpty_some]
  exact strip_of_status_line hsp₇ (by simpa using hstatus) hsp₉ hw₇

omit [UpperCase] [CharTables] [TextMatching] in
/-- A block with the statuses to choose from can be read, whatever its justification. -/
theorem exists_mem_openBlock {cveId : Str} (rest : Str) (g : Groups Char VatGroup)
    (hne : cveId ≠ []) (hcve : ∀ c ∈ cveId, Str.isSpace c = false) :
    ∃ m, m ∈ run vatBlockRelaxedRe g (openBlock cveId rest) := by
  refine exists_mem_run_all (mem_run_lit_append (u := str "[VAT]") (by decide) (by decide)) ?_
  refine exists_mem_run_all mem_run_spaces_blank ?_
  refine exists_mem_run_all (mem_run_group.mpr ⟨_, _, mem_run_plus.mpr
    ⟨rfl, cveId, hne, by simpa using hcve, rfl⟩, rfl⟩) ?_
  refine exists_mem_run_all mem_run_spaces_nil (exists_mem_run_all mem_run_newline_cons ?_)
  refine exists_mem_run_all (mem_run_lit_append (u := str "status:") (by decide) (by decide)) ?_
  refine exists_mem_run_all mem_run_spaces_blank ?_
  refine exists_mem_run_all (mem_run_group.mpr ⟨_, _, mem_run_plus.mpr
    ⟨rfl, statusOptions, by decide, List.all_eq_true.mp (by decide), rfl⟩, rfl⟩) ?_
  refine exists_mem_run_all mem_run_spaces_nil (exists_mem_run_all mem_run_newline_cons ?_)
  refine exists_mem_run_all
    (mem_run_lit_append (u := str "justification:") (by decide) (by decide)) ?_
  refine exists_mem_run_all mem_run_spaces_nil ?_
  -- the justification takes the rest of the text
  refine exists_mem_run_all (mem_run_group.mpr ⟨_, _, mem_run_many.mpr
    ⟨rfl, rest, by simp, (List.append_nil rest).symm⟩, rfl⟩) ?_
  refine exists_mem_run_all (List.mem_append_right _ (List.mem_singleton_self _)) ?_
  exact exists_mem_run_all (mem_run_endsBefore_nil _) ⟨_, List.mem_singleton_self _⟩

omit [UpperCase] [CharTables] in
theorem parseChunk_openBlock {cveId : Str} (rest : Str) (hne : cveId ≠ [])
    (hcve : ∀ c ∈ cveId, Str.isSpace c = false) : (parseChunk (openBlock cveId rest)).isSome := by
  rw [parseChunk]
  cases vatBlockRe.search (openBlock cveId rest) with
  | some g => rfl
  | none =>
    obtain ⟨m, hm⟩ := exists_mem_openBlock rest (fun _ => none) hne hcve
    obtain ⟨n, hn, hsearch⟩ := search_of_mem hm
    have hstatus := extractStatus_statusOptions (strip_status_of_mem hne hcve hn)
    simp [hsearch, hstatus]

/-! ### Where blocks start -/

omit [Unicode] [UpperCase] [CharTables] [TextMatching] in
/-- What starts a block: the mark, blanks and a word. -/
theorem mem_run_blockStart {g g' : Groups Char VatGroup} {s t : Str}
    (h : (g', t) ∈ run blockStart g s) : ∃ sp word, (∀ c ∈ sp, Str.isSpace c) ∧ word ≠ [] ∧
      (∀ c ∈ word, Str.isSpace c = false) ∧ s = str "[VAT]" ++ (sp ++ (word ++ t)) := by
  obtain ⟨g₁, t₁, h₁, r₁⟩ := mem_run_all.mp h
  obtain ⟨rfl, u, hu, rfl⟩ := mem_run_literal h₁
  obtain ⟨g₂, t₂, h₂, r₂⟩ := mem_run_all.mp r₁
  obtain ⟨rfl, sp, hsp, rfl⟩ := mem_run_many.mp h₂
  obtain ⟨g₃, t₃, h₃, r₃⟩ := mem_run_all.mp r₂
  obtain ⟨rfl, word, hne, hword, rfl⟩ := mem_run_plus.mp h₃
  obtain ⟨-, rfl⟩ := Prod.mk.inj (List.mem_singleton.mp r₃)
  have hmark : str "[VAT]" = u := by simpa using hu
  exact ⟨sp, word, hsp, hne, by simpa using hword, by rw [hmark]⟩

omit [Unicode] [UpperCase] [CharTables] [TextMatching] in
/-- A mark with an identifier on its line is where a block starts. -/
theorem matchStart_blockStart_line {cveId : Str} (rest : Str) (hne : cveId ≠ [])
    (hcve : ∀ c ∈ cveId, Str.isSpace c = false) :
    blockStart.matchStart (str "[VAT]" ++ ' ' :: (cveId ++ '\n' :: rest)) =
      some (fun _ => none, '\n' :: rest) := by
  obtain ⟨c, cveId, rfl⟩ := List.exists_cons_of_ne_nil hne
  have mark : List.Forall₂ (fun c d => (c == d) = true) (str "[VAT]") (str "[VAT]") := by decide
  refine head?_run_seq (by rw [run_literal_append mark]; rfl) ?_
  refine head?_run_seq (head?_run_many (u := [' ']) (List.all_eq_true.mp (by decide)) ?_) ?_
  · intro d hd
    obtain rfl : c = d := Option.some.inj hd
    exact hcve c List.mem_cons_self
  · refine head?_run_seq (head?_run_plus (u := c :: cveId) (by simp) (by simpa using hcve) ?_) rfl
    intro d hd
    obtain rfl : '\n' = d := Option.some.inj hd
    decide

omit [Unicode] [UpperCase] [CharTables] [TextMatching] in
/-- In a mark, blanks and a word, no blank comes right after a character that is neither a blank nor
the end of the mark. -/
theorem not_blank_after {v sp word r : Str} {x c : Char} (hx : Str.isSpace x = false)
    (hmark : x ≠ ']') (hc : Str.isSpace c) (hsp : ∀ d ∈ sp, Str.isSpace d)
    (hword : ∀ d ∈ word, Str.isSpace d = false) :
    (v ++ [x]) ++ c :: r ≠ str "[VAT]" ++ (sp ++ word) := by
  intro h
  have not_mark : v ++ [x] ≠ str "[VAT]" := fun heq => hmark (by
    have hlast := congrArg List.getLast? heq
    rw [List.getLast?_append_cons, List.getLast?_singleton] at hlast
    exact Option.some.inj hlast)
  rcases List.append_eq_append_iff.mp h with ⟨a, hmark', ha⟩ | ⟨a, hv, ha⟩
  · cases a with
    | nil => exact not_mark (by simpa using hmark'.symm)
    | cons d a =>
      obtain ⟨rfl, -⟩ := List.cons.inj ha
      have hmem : c ∈ str "[VAT]" := hmark' ▸ by simp
      have noBlank : ((str "[VAT]").all fun d => !Str.isSpace d) = true := by decide
      exact absurd hc (by simpa using List.all_eq_true.mp noBlank c hmem)
  · cases a using List.reverseRecOn with
    | nil => exact not_mark (by simpa using hv)
    | append_singleton a y =>
      rw [← List.append_assoc] at hv
      obtain rfl : x = y := (List.append_inj' hv rfl).2 |> List.singleton_inj.mp
      rcases List.append_eq_append_iff.mp ha with ⟨b, hword', hb⟩ | ⟨b, rfl, -⟩
      · exact absurd hc (by simp [hword c (by rw [hb]; simp)])
      · exact absurd (hsp x (by simp)) (by simp [hx])

omit [Unicode] [UpperCase] [CharTables] [TextMatching] in
/-- A block that starts before a character and blanks does not read past them, unless the character
is a blank or ends the mark. -/
theorem length_le_of_blockStart {v w s : Str} {x : Char} {m : Groups Char VatGroup × Str}
    (hx : Str.isSpace x = false) (hmark : x ≠ ']') (hw : ∀ c ∈ w, Str.isSpace c) (hne : w ≠ [])
    (h : blockStart.matchStart (v ++ x :: w ++ s) = some m) : s.length ≤ m.2.length := by
  obtain ⟨sp, word, hsp, -, hword, heq⟩ := mem_run_blockStart (mem_of_matchStart h)
  obtain ⟨c, w, rfl⟩ := List.exists_cons_of_ne_nil hne
  have past : v ++ x :: c :: w ++ s = (str "[VAT]" ++ (sp ++ word)) ++ m.2 := by
    rw [heq, List.append_assoc, List.append_assoc]
  rcases List.append_eq_append_iff.mp past with ⟨z, hz, rfl⟩ | ⟨z, -, hz⟩
  · refine absurd ?_ (not_blank_after (v := v) (r := w ++ z) hx hmark (hw c List.mem_cons_self) hsp
      hword)
    rw [hz]
    simp
  · rw [hz, List.length_append]
    exact Nat.le_add_left ..

omit [Unicode] [UpperCase] [CharTables] [TextMatching] in
/-- No block starts at another character than a bracket. -/
theorem matchStart_blockStart_cons {c : Char} (s : Str) (hc : c ≠ '[') :
    blockStart.matchStart (c :: s) = none := by
  rw [Option.eq_none_iff_forall_ne_some]
  intro m hm
  obtain ⟨sp, word, -, -, -, heq⟩ := mem_run_blockStart (mem_of_matchStart hm)
  exact hc (List.cons.inj heq).1

omit [Unicode] [UpperCase] [CharTables] [TextMatching] in
/-- The starts of blocks behind a mark and its identifier are those after some lines without a
bracket. -/
theorem matchesAfter_block {cveId lines : Str} (rest : Str) (hne : cveId ≠ [])
    (hcve : ∀ c ∈ cveId, Str.isSpace c = false) (hlines : '[' ∉ lines) :
    blockStart.matchesAfter 0 (str "[VAT]" ++ ' ' :: (cveId ++ '\n' :: (lines ++ rest))) =
      (str "[VAT]" ++ ' ' :: cveId, str "[VAT]" ++ ' ' :: (cveId ++ '\n' :: (lines ++ rest))) ::
        blockStart.matchesAfter 0 rest := by
  have hmatch := matchStart_blockStart_line (lines ++ rest) hne hcve
  have hsplit : str "[VAT]" ++ ' ' :: (cveId ++ '\n' :: (lines ++ rest)) =
      (str "[VAT]" ++ ' ' :: cveId) ++ ('\n' :: lines ++ rest) := by
    simp
  rw [hsplit] at hmatch ⊢
  rw [matchesAfter_of_matchStart (g := fun _ => none) (by simp [str]) (by rw [hmatch]; simp),
    matchesAfter_append]
  intro v w hv hw
  obtain ⟨c, v, rfl⟩ := List.exists_cons_of_ne_nil hv
  have plain : '[' ∉ '\n' :: lines := List.not_mem_cons_of_ne_of_not_mem (by decide) hlines
  exact matchStart_blockStart_cons _ fun h => plain (by rw [hw, h]; simp)

omit [Unicode] [UpperCase] [CharTables] [TextMatching] in
/-- The starts of blocks in the text of the template are its own and those after its
justification. -/
theorem matchesAfter_openBlock {cveId : Str} (rest : Str) (hne : cveId ≠ [])
    (hcve : ∀ c ∈ cveId, Str.isSpace c = false) :
    blockStart.matchesAfter 0 (openBlock cveId rest) =
      (str "[VAT]" ++ ' ' :: cveId, openBlock cveId rest) :: blockStart.matchesAfter 0 rest := by
  have hlines : openBlock cveId rest = str "[VAT]" ++ ' ' :: (cveId ++ '\n' ::
      ((str "status:" ++ ' ' :: statusOptions ++ '\n' :: str "justification:") ++ rest)) := by
    simp [openBlock]
  rw [hlines]
  exact matchesAfter_block rest hne hcve (by decide)

omit [Unicode] [UpperCase] [CharTables] [TextMatching] in
/-- After a character and blanks, the template's block is where a block starts. -/
theorem exists_matches_openBlock (before s : Str) {w : Str} {x : Char}
    (hx : Str.isSpace x = false) (hmark : x ≠ ']') (hw : ∀ c ∈ w, Str.isSpace c) (hwne : w ≠ []) :
    ∃ l, blockStart.finditer (before ++ x :: w ++ s) = l ++ blockStart.matchesAfter 0 s := by
  refine exists_matchesAfter_append (Nat.zero_le _) fun v pre m hv hpre hm => ?_
  rcases List.append_eq_append_iff.mp hpre with ⟨a, -, ha⟩ | ⟨a, -, rfl⟩
  · cases a with
    | nil =>
      obtain rfl : x :: w = v := ha
      exact length_le_of_blockStart (v := []) hx hmark hw hwne hm
    | cons d a =>
      -- a block does not start at a blank
      obtain ⟨c, v, rfl⟩ := List.exists_cons_of_ne_nil hv
      have hc : Str.isSpace c := hw c (by rw [(List.cons.inj ha).2]; simp)
      have bracket : c ≠ '[' := fun h => by simp [h, Str.isSpace] at hc
      rw [List.cons_append, matchStart_blockStart_cons _ bracket] at hm
      exact absurd hm (by simp)
  · exact length_le_of_blockStart hx hmark hw hwne hm

/-! ### The parser -/

omit [Unicode] [UpperCase] [CharTables] [TextMatching] in
/-- The text of a block runs up to the start of the next one. -/
theorem exists_mem_blockChunks (l : List Str) (s : Str) (starts : List Str) :
    ∃ chunk ∈ blockChunks (l ++ s :: starts),
      chunk = s ∨ ∃ t ∈ starts, chunk = consumed s t := by
  induction l with
  | nil =>
    cases starts with
    | nil => exact ⟨s, by simp [blockChunks], .inl rfl⟩
    | cons t starts => exact ⟨consumed s t, by simp [blockChunks], .inr ⟨t, by simp, rfl⟩⟩
  | cons a l ih =>
    obtain ⟨chunk, hmem, h⟩ := ih
    refine ⟨chunk, ?_, h⟩
    cases l with
    | nil => simp only [List.cons_append, List.nil_append, blockChunks] at hmem ⊢; simp [hmem]
    | cons b l => simp only [List.cons_append, blockChunks] at hmem ⊢; simp [hmem]

omit [UpperCase] [CharTables] in
/-- A block with the statuses to choose from is read after a character and blanks. -/
theorem parseStandard_openBlock (before rest : Str) {w cveId : Str} {x : Char}
    (hx : Str.isSpace x = false) (hmark : x ≠ ']') (hw : ∀ c ∈ w, Str.isSpace c) (hwne : w ≠ [])
    (hne : cveId ≠ []) (hcve : ∀ c ∈ cveId, Str.isSpace c = false) :
    (parseStandard (before ++ x :: w ++ openBlock cveId rest)).isSome := by
  obtain ⟨l, hl⟩ := exists_matches_openBlock before (openBlock cveId rest) hx hmark hw hwne
  rw [parseStandard, hl, matchesAfter_openBlock rest hne hcve, List.map_append, List.map_cons]
  obtain ⟨chunk, hmem, hchunk⟩ := exists_mem_blockChunks (l.map Prod.snd) (openBlock cveId rest)
    ((blockStart.matchesAfter 0 rest).map Prod.snd)
  have opened : ∃ rest', chunk = openBlock cveId rest' := by
    rcases hchunk with rfl | ⟨t, ht, rfl⟩
    · exact ⟨rest, rfl⟩
    · obtain ⟨m, hm, rfl⟩ := List.mem_map.mp ht
      obtain ⟨rest', rfl⟩ := (mem_matchesAfter hm).1
      refine ⟨rest', ?_⟩
      have : openBlock cveId (rest' ++ m.2) = openBlock cveId rest' ++ m.2 := by simp [openBlock]
      rw [this, consumed_append]
  obtain ⟨rest', rfl⟩ := opened
  rw [List.findSome?_isSome_iff]
  exact ⟨_, hmem, parseChunk_openBlock rest' hne hcve⟩

omit [Unicode] [UpperCase] [CharTables] [TextMatching] in
theorem requiredText_append (cveId after : Str) : requiredText cveId ++ after =
    openBlock cveId (str " <required>\ncompensating-controls: <optional>" ++ after) := by
  simp [requiredText, openBlock, str]

/-- Whatever stands before it, the required block is read after a character and a blank line. -/
theorem parseVatBlock_requiredText (before after : Str) {cveId : Str} {x : Char}
    (hx : Str.isSpace x = false) (hmark : x ≠ ']') (hne : cveId ≠ [])
    (hcve : ∀ c ∈ cveId, Str.isSpace c = false) (hint : Option Str) :
    parseVatBlock (before ++ x :: str "\n\n" ++ (requiredText cveId ++ after)) hint ≠ none := by
  have standard := parseStandard_openBlock before (w := str "\n\n")
    (str " <required>\ncompensating-controls: <optional>" ++ after) hx hmark
    (List.all_eq_true.mp (by decide)) (by decide)
    hne hcve
  obtain ⟨b, hb⟩ := Option.isSome_iff_exists.mp standard
  rw [requiredText_append, parseVatBlock, if_neg (by simp), hb]
  simp

end Vat

import Vat.Delimited.Fields
import Vat.Tracker.ReadBack

/-!
# Untouched issues

Nobody has answered an issue whose text is still the one VAT wrote. The parser nevertheless finds an
answer in it, because the status line of the template is read as its first status.

Where the identifier of the finding is one word, the standard grammar reads the block, whatever else
the texts say. Any other identifier keeps the block from the grammars that start at the mark; the
flexible grammar then reads the status line and the justification line without it. That is shown
for findings whose own texts have no justification line: every match of that grammar ends before the
only line that starts like a justification (`eq_of_justification`), so that its status stands on the
line before (`status_of_optionLine`).

Source: `backend/app/adapters/linear.py`, lines 240–352, 929–997 and 1771–1802.

## Main definitions

* `NoJustification`: texts without justification lines.
* `IssueFinding.ownTexts`: the texts of a finding that its issue shows.

## Main results

* `extractStatus_of_mem_flexible`: what the flexible grammar takes for the status.
* `required_block_read_back`: issue bodies and comments of VAT are read as decisions.
-/

namespace Vat

open Delimited Regex VatRegex

/-! ### Texts with one marked line -/

/-- Where only one element of a list has a property, what stands around it is determined. -/
theorem append_cons_inj_of_unique {α : Type*} {P : α → Prop} {l r l' r' : List α} {x x' : α}
    (hx' : P x') (hl : ∀ y ∈ l, ¬ P y) (hr : ∀ y ∈ r, ¬ P y) (h : l ++ x :: r = l' ++ x' :: r') :
    l = l' ∧ x = x' ∧ r = r' := by
  rcases List.append_eq_append_iff.mp h with ⟨a, rfl, ha⟩ | ⟨a, rfl, ha⟩
  · cases a with
    | nil =>
      obtain ⟨rfl, rfl⟩ := List.cons.inj ha
      exact ⟨by simp, rfl, rfl⟩
    | cons y a =>
      obtain ⟨-, rfl⟩ := List.cons.inj ha
      exact absurd hx' (hr x' (by simp))
  · cases a with
    | nil =>
      obtain ⟨rfl, rfl⟩ := List.cons.inj ha
      exact ⟨by simp, rfl, rfl⟩
    | cons y a =>
      obtain ⟨rfl, -⟩ := List.cons.inj ha
      exact absurd hx' (hl x' (by simp))

theorem exists_of_mem_right {α β : Type*} {R : α → β → Prop} {l : List α} {l' : List β} {b : β}
    (h : List.Forall₂ R l l') (hb : b ∈ l') : ∃ a ∈ l, R a b := by
  induction h with
  | nil => simp at hb
  | @cons a b' l l' hab _ ih =>
    rcases List.mem_cons.mp hb with rfl | hb
    · exact ⟨a, by simp, hab⟩
    · obtain ⟨a', ha', hr⟩ := ih hb
      exact ⟨a', by simp [ha'], hr⟩

section General

variable [Unicode]

/-- The key of a justification at the start of a line: the word alone or before a colon. -/
def justificationKey : VatRegex :=
  .all [lit "justification", spaces, .alt (.one (· == ':')) .atEnd]

/-- No line of the text is a justification. -/
def NoJustification (s : Str) : Prop :=
  ∀ line ∈ s.splitOn '\n', justificationKey.matchStart line = none

/-- What a justification line is. -/
theorem matchStart_justificationKey {line : Str} :
    justificationKey.matchStart line ≠ none ↔
      ∃ u sp r, List.Forall₂ (fun c d => Pattern.foldsTo c d) (str "justification") u ∧
        (∀ c ∈ sp, Str.isSpace c) ∧ line = u ++ (sp ++ r) ∧ (r = [] ∨ r.head? = some ':') := by
  rw [matchStart_ne_none]
  constructor
  · rintro ⟨⟨g, t⟩, hm⟩
    obtain ⟨g₁, t₁, h₁, r₁⟩ := mem_run_all.mp hm
    obtain ⟨rfl, u, hu, rfl⟩ := mem_run_literal h₁
    obtain ⟨g₂, t₂, h₂, r₂⟩ := mem_run_all.mp r₁
    obtain ⟨rfl, sp, hsp, rfl⟩ := mem_run_many.mp h₂
    obtain ⟨g₃, t₃, h₃, -⟩ := mem_run_all.mp r₂
    refine ⟨u, sp, t₂, hu, hsp, rfl, ?_⟩
    rw [run_alt, List.mem_append] at h₃
    rcases h₃ with h₃ | h₃
    · obtain ⟨-, c, hc, rfl⟩ := mem_run_one.mp h₃
      exact .inr (by rw [eq_of_beq hc]; rfl)
    · cases t₂ with
      | nil => exact .inl rfl
      | cons c t₂ => simp [run_atEnd] at h₃
  · rintro ⟨u, sp, r, hu, hsp, rfl, hr⟩
    have word : (fun _ => none, sp ++ r) ∈ run (lit "justification") (fun _ => none)
        (u ++ (sp ++ r)) := by
      rw [lit, run_literal_append hu]
      exact List.mem_singleton_self _
    refine exists_mem_run_all word ?_
    refine exists_mem_run_all (mem_run_many.mpr ⟨rfl, sp, hsp, rfl⟩) ?_
    rcases hr with rfl | hr
    · exact exists_mem_run_all (List.mem_append_right _ (List.mem_singleton_self _))
        ⟨_, List.mem_singleton_self _⟩
    · obtain ⟨r, rfl⟩ := List.head?_eq_some_iff.mp hr
      exact exists_mem_run_all (List.mem_append_left _ (mem_run_one.mpr ⟨rfl, ':', rfl, rfl⟩))
        ⟨_, List.mem_singleton_self _⟩

/-- A line that starts with another letter is no justification. -/
theorem matchStart_justificationKey_cons {c : Char} (line : Str) (hc : c.toNat < 128)
    (hj : c.toLower ≠ 'j') : justificationKey.matchStart (c :: line) = none := by
  by_contra h
  obtain ⟨u, sp, r, hu, -, heq, -⟩ := matchStart_justificationKey.mp h
  cases hu with
  | @cons _ d _ u hd hu =>
    obtain ⟨rfl, -⟩ := List.cons.inj heq
    rw [Pattern.foldsTo_of_ascii hc] at hd
    exact hj (of_decide_eq_true hd)

/-- A character that no justification key contains. -/
def Closing (c : Char) : Prop :=
  c.toNat < 128 ∧ c.toLower ∉ str "justification" ∧ Str.isSpace c = false ∧ c ≠ ':'

instance (c : Char) : Decidable (Closing c) := inferInstanceAs (Decidable (_ ∧ _))

/-- A line is no more of a justification for what is put after it, behind a closing character. -/
theorem matchStart_justificationKey_append {line : Str} {c : Char} (after : Str) (hc : Closing c)
    (h : justificationKey.matchStart line = none) :
    justificationKey.matchStart (line ++ c :: after) = none := by
  obtain ⟨hascii, hletter, hblank, hcolon⟩ := hc
  by_contra hafter
  obtain ⟨u, sp, r, hu, hsp, heq, hr⟩ := matchStart_justificationKey.mp hafter
  have hcu : c ∉ u := by
    intro hmem
    obtain ⟨d, hd, hfold⟩ := exists_of_mem_right hu hmem
    rw [Pattern.foldsTo_of_ascii hascii, decide_eq_true_iff] at hfold
    exact hletter (hfold ▸ hd)
  have hcsp : c ∉ sp := fun hmem => absurd (hsp c hmem) (by simp [hblank])
  have hkey : c ∉ u ++ sp := by simp [hcu, hcsp]
  rw [← List.append_assoc] at heq
  rcases List.append_eq_append_iff.mp heq with ⟨a, ha, hb⟩ | ⟨a, rfl, hb⟩
  · cases a with
    | nil =>
      rcases hr with rfl | hr
      · simp at hb
      · rw [List.nil_append] at hb
        rw [← hb] at hr
        exact hcolon (Option.some.inj hr)
    | cons d a =>
      obtain ⟨rfl, -⟩ := List.cons.inj hb
      exact hkey (by rw [ha]; simp)
  · refine matchStart_justificationKey.mpr ⟨u, sp, a, hu, hsp, List.append_assoc .., ?_⟩ h
    cases a with
    | nil => exact .inl rfl
    | cons d a =>
      rcases hr with rfl | hr
      · simp at hb
      · rw [hb] at hr
        exact .inr hr

/-! ### Texts without justification lines -/

theorem NoJustification.append {s t : Str} (hs : NoJustification s) (ht : NoJustification t) :
    NoJustification (s ++ '\n' :: t) := by
  intro line hline
  rw [List.splitOn_append_cons_self, List.mem_append] at hline
  exact hline.elim (hs line) (ht line)

theorem noJustification_nil : NoJustification [] := by
  intro line hline
  obtain rfl : line = [] := by simpa using hline
  rfl

theorem NoJustification.join {parts : List Str} (h : ∀ s ∈ parts, NoJustification s) :
    NoJustification (Str.join '\n' parts) := by
  induction parts with
  | nil => exact noJustification_nil
  | cons s parts ih =>
    cases parts with
    | nil => simpa [Str.join] using h
    | cons t parts =>
      have := (h s (by simp)).append (ih fun r hr => h r (by simp [hr]))
      simpa [Str.join] using this

/-- A text on one line that does not start like a justification key. -/
def Label (s : Str) : Prop :=
  (s.head?.any fun c => c.toNat < 128 && c.toLower != 'j') = true ∧ '\n' ∉ s

instance (s : Str) : Decidable (Label s) := inferInstanceAs (Decidable (_ ∧ _))

/-- A text behind a label has no justification line that it does not have alone. -/
theorem NoJustification.prepend {label s : Str} (hs : NoJustification s) (hlabel : Label label) :
    NoJustification (label ++ s) := by
  intro line hline
  obtain ⟨first, lines, hsplit⟩ := List.exists_cons_of_ne_nil (List.splitOn_ne_nil '\n' s)
  rw [splitOn_append_of_notMem hlabel.2, hsplit, List.modifyHead_cons, List.mem_cons] at hline
  rcases hline with rfl | hline
  · obtain ⟨hhead, -⟩ := hlabel
    cases label with
    | nil => simp at hhead
    | cons c label =>
      simp only [List.head?_cons, Option.any_some, Bool.and_eq_true, decide_eq_true_iff,
        bne_iff_ne] at hhead
      exact matchStart_justificationKey_cons _ hhead.1 hhead.2
  · exact hs line (by rw [hsplit]; exact List.mem_cons_of_mem _ hline)

/-- A label has no justification line. -/
theorem Label.noJustification {label : Str} (hlabel : Label label) : NoJustification label := by
  simpa using noJustification_nil.prepend hlabel

/-- Text put after the last line, behind a closing character, makes no justification. -/
theorem NoJustification.close {s after : Str} {c : Char} (hs : NoJustification s) (hc : Closing c)
    (hafter : '\n' ∉ c :: after) : NoJustification (s ++ c :: after) := by
  obtain ⟨lines, last, hsplit⟩ :=
    (s.splitOn '\n').eq_nil_or_concat.resolve_left (List.splitOn_ne_nil '\n' s)
  rw [List.concat_eq_append] at hsplit
  have hclean : ∀ x ∈ lines ++ [last], '\n' ∉ x := fun x hx => notMem_of_mem_splitOn (hsplit ▸ hx)
  have joined : ['\n'].intercalate (s.splitOn '\n') = s := List.intercalate_splitOn '\n'
  have hs_eq : s = terminated '\n' lines ++ last := by
    rw [← joined, hsplit, intercalate_append_cons, intercalate_cons]
    simp
  have hlast : '\n' ∉ last ++ c :: after := by
    rw [List.mem_append, not_or]
    exact ⟨hclean last (by simp), hafter⟩
  have hsingle : (last ++ c :: after).splitOn '\n' = [last ++ c :: after] := by
    simpa using splitOn_append_of_notMem hlast []
  intro line hline
  rw [hs_eq, List.append_assoc, splitOn_terminated_append fun x hx => hclean x (by simp [hx]),
    hsingle, List.mem_append, List.mem_singleton] at hline
  rcases hline with hline | rfl
  · exact hs line (by rw [hsplit]; simp [hline])
  · exact matchStart_justificationKey_append after hc (hs last (by rw [hsplit]; simp))

/-! ### The flexible grammar -/

/-- The status line of the template. -/
def optionLine : Str := str "status: " ++ statusOptions

/-- The justification line of the template. -/
def placeholderLine : Str := str "justification: <required>"

/-- A text that starts with a justification key starts with a justification line. -/
theorem exists_line_of_key {u sp r : Str} (hu : List.Forall₂ (fun c d => Pattern.foldsTo c d)
    (str "justification") u) (hsp : ∀ c ∈ sp, Str.isSpace c) :
    ∃ line lines, (u ++ (sp ++ ':' :: r)).splitOn '\n' = line :: lines ∧
      justificationKey.matchStart line ≠ none := by
  have hnl : '\n' ∉ u := by
    intro hmem
    obtain ⟨d, hd, hfold⟩ := exists_of_mem_right hu hmem
    rw [Pattern.foldsTo_of_ascii (by decide), decide_eq_true_iff] at hfold
    exact absurd (hfold ▸ hd) (by decide)
  by_cases hmem : '\n' ∈ sp
  · -- the colon stands on a later line
    obtain ⟨sp₁, sp₂, rfl, hsp₁⟩ := List.eq_append_cons_of_mem hmem
    have hline : '\n' ∉ u ++ sp₁ := by simp [hnl, hsp₁]
    refine ⟨u ++ sp₁, (sp₂ ++ ':' :: r).splitOn '\n', ?_, ?_⟩
    · rw [List.append_assoc, List.cons_append, ← List.append_assoc,
        List.splitOn_append_cons_self_of_not_mem hline]
    · exact matchStart_justificationKey.mpr ⟨u, sp₁, [], hu, fun c hc => hsp c (by simp [hc]),
        by simp, .inl rfl⟩
  · obtain ⟨first, lines, hsplit⟩ := List.exists_cons_of_ne_nil (List.splitOn_ne_nil '\n' r)
    have hline : '\n' ∉ u ++ (sp ++ [':']) := by simp [hnl, hmem]
    refine ⟨u ++ (sp ++ [':']) ++ first, lines, ?_, ?_⟩
    · have : u ++ (sp ++ ':' :: r) = u ++ (sp ++ [':']) ++ r := by simp
      rw [this, splitOn_append_of_notMem hline, hsplit]
      rfl
    · exact matchStart_justificationKey.mpr ⟨u, sp, ':' :: first, hu, hsp, by simp, .inr rfl⟩

/-- What stands before the only justification line of a text. -/
theorem eq_of_justification {before after x y : Str} (hbefore : NoJustification before)
    (hafter : NoJustification after)
    (hy : ∃ line lines, y.splitOn '\n' = line :: lines ∧ justificationKey.matchStart line ≠ none)
    (h : before ++ '\n' :: (placeholderLine ++ '\n' :: after) = x ++ '\n' :: y) : before = x := by
  obtain ⟨line, lines, hsplit, hline⟩ := hy
  have hplace : '\n' ∉ placeholderLine := by decide
  have hlines := congrArg (List.splitOn '\n') h
  rw [List.splitOn_append_cons_self, List.splitOn_append_cons_self_of_not_mem hplace,
    List.splitOn_append_cons_self, hsplit] at hlines
  have heq := (append_cons_inj_of_unique (P := fun s => justificationKey.matchStart s ≠ none) hline
    (fun s hs => by simpa using hbefore s hs) (fun s hs => by simpa using hafter s hs) hlines).1
  have joined : ['\n'].intercalate (before.splitOn '\n') = before :=
    List.intercalate_splitOn '\n'
  rw [← joined, heq, List.intercalate_splitOn]

omit [Unicode] in
/-- A status that ends the template's status line, by what stands before it on the line. -/
theorem status_of_optionLine_split {before x sp r status : Str} (hsp : ∀ c ∈ sp, Str.isSpace c)
    (hstatus : '\n' ∉ status) (h : before ++ '\n' :: r = x ++ ':' :: sp)
    (hline : optionLine = r ++ status) :
    status = optionLine ∨ Str.strip status = statusOptions := by
  cases r with
  | nil => exact .inl hline.symm
  | cons c r =>
    obtain rfl : 's' = c := (List.cons.inj hline).1
    -- the colon is the one of the line
    have hcolon : ∃ key, 's' :: r = key ++ ':' :: sp := by
      have hsplit : before ++ ['\n'] ++ 's' :: r = x ++ [':'] ++ sp := by simpa using h
      rcases List.append_eq_append_iff.mp hsplit with ⟨a, ha, hr⟩ | ⟨a, ha, hr⟩
      · cases a using List.reverseRecOn with
        | nil =>
          have := congrArg List.getLast? ha
          simp at this
        | append_singleton a d =>
          rw [← List.append_assoc] at ha
          obtain rfl : ':' = d := List.singleton_inj.mp (List.append_inj' ha rfl).2
          exact ⟨a, by simpa using hr⟩
      · exact absurd (hsp 's' (by rw [hr]; simp)) (by decide)
    obtain ⟨key, hkey⟩ := hcolon
    have hparts : str "status" ++ ':' :: (' ' :: statusOptions) = key ++ ':' :: (sp ++ status) := by
      rw [show str "status" ++ ':' :: (' ' :: statusOptions) = optionLine from rfl, hline, hkey]
      simp
    have before : ':' ∉ str "status" := by decide
    have after : ':' ∉ ' ' :: statusOptions := by decide
    have hrest : ' ' :: statusOptions = sp ++ status :=
      (append_cons_inj_of_unique (P := (· = ':')) rfl (fun c hc h => before (h ▸ hc))
        (fun c hc h => after (h ▸ hc)) hparts).2.2
    have whole : ' ' :: (statusOptions ++ '\n' :: []) = sp ++ (status ++ ([] ++ '\n' :: [])) := by
      rw [← List.cons_append, hrest]
      simp
    exact .inr (strip_of_status_line hsp (fun c hc h => hstatus (h ▸ hc)) (by simp) whole)

omit [Unicode] in
/-- A status that ends the template's status line behind a colon and blanks. -/
theorem status_of_optionLine {before x sp status sp' : Str} (hsp : ∀ c ∈ sp, Str.isSpace c)
    (hstatus : '\n' ∉ status) (hsp' : ∀ c ∈ sp', Str.isSpace c)
    (h : before ++ '\n' :: optionLine = x ++ ':' :: (sp ++ (status ++ sp'))) :
    status = optionLine ∨ Str.strip status = statusOptions := by
  -- the line does not end in a blank
  obtain rfl : sp' = [] := by
    cases sp' using List.reverseRecOn with
    | nil => rfl
    | append_singleton sp' c =>
      have hlast := congrArg List.getLast? h
      have hline : (before ++ '\n' :: optionLine).getLast? = some 'e' := by
        rw [List.getLast?_append_cons]
        decide
      have hc : x ++ ':' :: (sp ++ (status ++ (sp' ++ [c]))) =
          (x ++ ':' :: (sp ++ (status ++ sp'))) ++ [c] := by simp
      rw [hline, hc, List.getLast?_concat] at hlast
      have := hsp' c (by simp)
      rw [← Option.some.inj hlast] at this
      exact absurd this (by decide)
  rw [List.append_nil] at h
  have hsuffix : before ++ '\n' :: optionLine = (x ++ ':' :: sp) ++ status := by simp [h]
  rcases List.append_eq_append_iff.mp hsuffix with ⟨a, ha, hline⟩ | ⟨a, -, rfl⟩
  · cases a with
    | nil =>
      rw [List.nil_append] at hline
      simp [← hline] at hstatus
    | cons c r =>
      exact status_of_optionLine_split hsp hstatus ((List.cons.inj hline).1 ▸ ha.symm)
        (List.cons.inj hline).2
  · simp at hstatus

omit [Unicode] in
theorem mem_run_colon {g g' : Groups Char VatGroup} {s t : Str} (h : (g', t) ∈ run colon g s) :
    g' = g ∧ ∃ sp sp', (∀ c ∈ sp, Str.isSpace c) ∧ (∀ c ∈ sp', Str.isSpace c) ∧
      s = sp ++ ':' :: (sp' ++ t) := by
  obtain ⟨g₁, t₁, h₁, r₁⟩ := mem_run_all.mp h
  obtain ⟨rfl, sp, hsp, rfl⟩ := mem_run_many.mp h₁
  obtain ⟨g₂, t₂, h₂, r₂⟩ := mem_run_all.mp r₁
  obtain ⟨rfl, c, hc, rfl⟩ := mem_run_one.mp h₂
  obtain ⟨g₃, t₃, h₃, r₃⟩ := mem_run_all.mp r₂
  obtain ⟨rfl, sp', hsp', rfl⟩ := mem_run_many.mp h₃
  obtain ⟨rfl, rfl⟩ := Prod.mk.inj (List.mem_singleton.mp r₃)
  exact ⟨rfl, sp, sp', hsp, hsp', by rw [eq_of_beq hc]⟩

omit [Unicode] in
theorem mem_run_colon_blank {t : Str} {g : Groups Char VatGroup} :
    (g, t) ∈ run colon g (':' :: ' ' :: t) :=
  mem_run_all.mpr ⟨_, _, mem_run_spaces_nil,
    mem_run_all.mpr ⟨_, _, mem_run_one.mpr ⟨rfl, ':', rfl, rfl⟩,
      mem_run_all.mpr ⟨_, _, mem_run_spaces_blank, List.mem_singleton_self _⟩⟩⟩

/-- The flexible grammar can read the template's status line and what follows. -/
theorem exists_mem_flexible (after : Str) (g : Groups Char VatGroup) :
    ∃ m, m ∈ run vatFlexibleRe g (optionLine ++ '\n' :: (placeholderLine ++ '\n' :: after)) := by
  refine exists_mem_run_all (List.mem_append_right _ (List.mem_singleton_self _)) ?_
  refine exists_mem_run_all (mem_run_lit_append (u := str "status") (by decide) (by decide)) ?_
  refine exists_mem_run_all mem_run_colon_blank ?_
  refine exists_mem_run_all (mem_run_group.mpr ⟨_, _, mem_run_plus.mpr
    ⟨rfl, statusOptions, by decide, List.all_eq_true.mp (by decide), rfl⟩, rfl⟩) ?_
  refine exists_mem_run_all mem_run_spaces_nil (exists_mem_run_all mem_run_newline_cons ?_)
  refine exists_mem_run_all
    (mem_run_lit_append (u := str "justification") (by decide) (by decide)) ?_
  refine exists_mem_run_all mem_run_colon_blank ?_
  -- the justification takes the rest of the text
  refine exists_mem_run_all (mem_run_group.mpr ⟨_, _, mem_run_many.mpr
    ⟨rfl, _, by simp, (List.append_nil _).symm⟩, rfl⟩) ?_
  refine exists_mem_run_all (List.mem_append_right _ (List.mem_singleton_self _)) ?_
  exact exists_mem_run_all (mem_run_endsBefore_nil _) ⟨_, List.mem_singleton_self _⟩

section Parser

variable [TextMatching]

/-- The template's status line is read as a status, also as a whole. -/
theorem extractStatus_isSome {raw : Str} (h : raw = optionLine ∨ Str.strip raw = statusOptions) :
    (extractStatus raw).isSome := by
  rcases h with rfl | h
  · have hstrip : Str.strip optionLine = optionLine := by decide
    have hparts : str "false-positive" ∈ splitRuns separatesStatuses optionLine := by decide
    rw [extractStatus, hstrip, Option.isSome_or, Bool.or_eq_true, List.findSome?_isSome_iff]
    exact .inl ⟨_, hparts, by rw [normalizeStatus_falsePositive]; rfl⟩
  · rw [extractStatus_statusOptions h]
    rfl

/-- However the flexible grammar reads a text with one justification line, the status is on the
template's status line. -/
theorem extractStatus_of_mem_flexible {before after u s t : Str} {g : Groups Char VatGroup}
    (hbefore : NoJustification (before ++ '\n' :: optionLine)) (hafter : NoJustification after)
    (htext : (before ++ '\n' :: optionLine) ++ '\n' :: (placeholderLine ++ '\n' :: after) = u ++ s)
    (h : (g, t) ∈ run vatFlexibleRe (fun _ => none) s) :
    (extractStatus (groupText g .status)).isSome := by
  obtain ⟨g₁, t₁, h₁, r₁⟩ := mem_run_all.mp h
  obtain ⟨head, rfl⟩ := suffix_of_mem_run h₁
  obtain ⟨g₂, t₂, h₂, r₂⟩ := mem_run_all.mp r₁
  obtain ⟨rfl, key, -, rfl⟩ := mem_run_literal h₂
  obtain ⟨g₃, t₃, h₃, r₃⟩ := mem_run_all.mp r₂
  obtain ⟨rfl, sp₁, sp₂, -, hsp₂, rfl⟩ := mem_run_colon h₃
  -- the status
  obtain ⟨g₄, t₄, h₄, r₄⟩ := mem_run_all.mp r₃
  obtain ⟨g₄', t₄', h₄', he₄⟩ := mem_run_group.mp h₄
  obtain ⟨rfl, status, -, hstatus, rfl⟩ := mem_run_plus.mp h₄'
  obtain ⟨rfl, rfl⟩ := Prod.mk.inj he₄
  have kept : g .status = some status :=
    (groups_of_mem_run (by simp [names, lit, spaces, newline, anything, opt, looseControls, colon,
      endsBefore]) r₄).trans (by simp)
  obtain ⟨g₅, t₅, h₅, r₅⟩ := mem_run_all.mp r₄
  obtain ⟨-, sp₃, hsp₃, rfl⟩ := mem_run_many.mp h₅
  obtain ⟨g₆, t₆, h₆, r₆⟩ := mem_run_all.mp r₅
  obtain ⟨-, rfl⟩ := mem_run_newline h₆
  -- the justification line
  obtain ⟨g₇, t₇, h₇, r₇⟩ := mem_run_all.mp r₆
  obtain ⟨-, word, hword, rfl⟩ := mem_run_literal h₇
  obtain ⟨g₈, t₈, h₈, -⟩ := mem_run_all.mp r₇
  obtain ⟨-, sp₄, sp₅, hsp₄, -, rfl⟩ := mem_run_colon h₈
  have hline : before ++ '\n' :: optionLine =
      (u ++ (head ++ (key ++ sp₁))) ++ ':' :: (sp₂ ++ (status ++ sp₃)) := by
    refine eq_of_justification hbefore hafter
      (exists_line_of_key (r := sp₅ ++ t₈) hword hsp₄) ?_
    rw [htext]
    simp
  rw [groupText, kept, Str.orEmpty_some]
  refine extractStatus_isSome (status_of_optionLine hsp₂ ?_ hsp₃ hline)
  exact fun hmem => by simpa using hstatus _ hmem

variable [UpperCase] [CharTables]

/-- A text whose only justification line is the template's is read with the identifier as hint. -/
theorem parseVatBlock_of_noJustification {before after cveId : Str} (hne : cveId ≠ [])
    (hbefore : NoJustification (before ++ '\n' :: optionLine)) (hafter : NoJustification after) :
    parseVatBlock ((before ++ '\n' :: optionLine) ++ '\n' :: (placeholderLine ++ '\n' :: after))
      (some cveId) ≠ none := by
  obtain ⟨m, hm⟩ := exists_mem_flexible after (fun _ => none)
  obtain ⟨u, s, n, hs, hn, hsearch⟩ := search_of_mem_append (u := before ++ ['\n']) hm
  have htext : (before ++ '\n' :: optionLine) ++ '\n' :: (placeholderLine ++ '\n' :: after) =
      before ++ ['\n'] ++ (optionLine ++ '\n' :: (placeholderLine ++ '\n' :: after)) := by simp
  obtain ⟨status, hstatus⟩ := Option.isSome_iff_exists.mp
    (extractStatus_of_mem_flexible hbefore hafter (htext.trans hs) hn)
  have htruthy : Str.truthy (some cveId) = true := by simpa [Str.truthy] using hne
  have flexible : (parseFlexible ((before ++ '\n' :: optionLine) ++
      '\n' :: (placeholderLine ++ '\n' :: after)) (some cveId)).isSome := by
    rw [parseFlexible, htext, hsearch]
    simp only [Option.bind_eq_bind, Option.bind_some, hstatus, htruthy, if_true]
    split <;> rfl
  obtain ⟨b, hb⟩ := Option.isSome_iff_exists.mp flexible
  rw [parseVatBlock, if_neg (by simp), hb]
  simp

end Parser

/-! ### Issues and comments -/

/-- The finding's own texts in an issue body. -/
def IssueFinding.ownTexts (f : IssueFinding) : List Str :=
  [f.shownCve, Str.orEmpty f.severity, Str.orEmpty (Str.orElse f.component f.image),
    Str.orEmpty (Str.orElse f.camelFindingType f.findingType),
    Str.orEmpty (Str.orElse f.filePath f.camelFilePath),
    Str.orEmpty (Str.orElse f.sourceFileUrl f.camelSourceFileUrl),
    Str.orEmpty (Str.orElse f.sourceIssueUrl f.camelSourceIssueUrl),
    Str.orEmpty f.description, Str.orEmpty f.groupKey]

omit [Unicode] in
theorem newline_notMem_shownLine {f : IssueFinding} {line : Str} (h : f.shownLine = some line) :
    '\n' ∉ line := by
  rw [IssueFinding.shownLine] at h
  split at h
  · obtain rfl := Option.some.inj h
    intro hmem
    exact absurd (Nat.isDigit_of_mem_toDigits (by decide) (by decide) hmem) (by decide)
  · simp at h

/-- The lines that say where the finding is. -/
theorem noJustification_locationParts {f : IssueFinding}
    (hf : ∀ s ∈ f.ownTexts, NoJustification s) : ∀ s ∈ f.locationParts, NoJustification s := by
  have shown : ∀ {cond : Prop} [Decidable cond] {s t : Str},
      s ∈ (if cond then [] else [t]) → s = t := by
    intro cond _ s t h
    split at h
    · simp at h
    · exact List.mem_singleton.mp h
  intro s hs
  simp only [IssueFinding.locationParts, List.mem_append] at hs
  rcases hs with (hs | hs) | hs
  · rw [shown hs, List.append_assoc]
    refine NoJustification.close ((hf _ (by simp [IssueFinding.ownTexts])).prepend (by decide))
      (by decide) ?_
    cases hline : f.shownLine with
    | none => decide
    | some line =>
      have label : '\n' ∉ '\x60' :: str " (line " := by decide
      have close : '\n' ∉ str ")" := by decide
      have number := newline_notMem_shownLine hline
      intro hmem
      rcases List.mem_append.mp (show '\n' ∈ ('\x60' :: str " (line " ++ line) ++ str ")" from hmem)
        with hmem | hmem
      · exact (List.mem_append.mp hmem).elim label number
      · exact close hmem
  · rw [shown hs]
    exact (hf _ (by simp [IssueFinding.ownTexts])).prepend (by decide)
  · rw [shown hs]
    exact (hf _ (by simp [IssueFinding.ownTexts])).prepend (by decide)

/-- The lines above the template have no justification line if the finding's texts have none. -/
theorem noJustification_details {f : IssueFinding} (hf : ∀ s ∈ f.ownTexts, NoJustification s) :
    ∀ s ∈ f.details, NoJustification s := by
  have severity : NoJustification (f.severity.getD (str "N/A")) := by
    cases h : f.severity with
    | none => exact Label.noJustification (by decide)
    | some s => exact hf s (by simp [IssueFinding.ownTexts, h])
  have location : NoJustification (if f.locationParts = [] then [] else
      Str.join '\n' f.locationParts ++ str "\n") := by
    split
    · exact noJustification_nil
    · exact (NoJustification.join (noJustification_locationParts hf)).append noJustification_nil
  have fallback : ∀ {s t : Str}, s ∈ f.ownTexts → Label t →
      NoJustification (IssueFinding.orText s t) := by
    intro s t hs ht
    rw [IssueFinding.orText]
    split
    · exact ht.noJustification
    · exact hf s hs
  simp only [IssueFinding.details, List.forall_mem_cons]
  refine ⟨(hf _ (by simp [IssueFinding.ownTexts])).prepend (by decide), noJustification_nil,
    severity.prepend (by decide), (fallback (by simp [IssueFinding.ownTexts]) (by decide)).prepend
    (by decide), (fallback (by simp [IssueFinding.ownTexts]) (by decide)).prepend (by decide),
    noJustification_nil, location, hf _ (by simp [IssueFinding.ownTexts]), noJustification_nil, ?_⟩
  simp

/-- What follows the template's justification line in an issue body. -/
def IssueFinding.afterPlaceholder (f : IssueFinding) : Str :=
  str "compensating-controls: <optional>" ++
    if Str.truthy f.groupKey then
      str "\n\n<!-- [VAT-GROUP: " ++ Str.orEmpty f.groupKey ++ str "] -->"
    else []

theorem noJustification_afterPlaceholder {f : IssueFinding}
    (hf : ∀ s ∈ f.ownTexts, NoJustification s) : NoJustification f.afterPlaceholder := by
  have controls : NoJustification (str "compensating-controls: <optional>") :=
    Label.noJustification (by decide)
  rw [IssueFinding.afterPlaceholder]
  split
  · have key := ((hf (Str.orEmpty f.groupKey) (by simp [IssueFinding.ownTexts])).prepend
      (show Label (str "<!-- [VAT-GROUP: ") by decide)).close (by decide)
      (show '\n' ∉ ']' :: str " -->" by decide)
    exact controls.append (noJustification_nil.append key)
  · simpa using controls

omit [Unicode] in
/-- An issue body around the template's justification line. -/
theorem buildIssueBody_placeholder (f : IssueFinding) :
    buildIssueBody f requiredBlock =
      (Str.join '\n' (f.details ++ [str "---", [], str "[VAT] " ++ f.shownCve]) ++
        '\n' :: optionLine) ++ '\n' :: (placeholderLine ++ '\n' :: f.afterPlaceholder) := by
  have filled : fillTemplate requiredBlock f.templateValues f.shownCve = requiredText f.shownCve :=
    fillTemplate_requiredBlock rfl
  rw [buildIssueBody, filled, join_details, join_details, IssueFinding.afterPlaceholder]
  split <;> simp [requiredText, optionLine, placeholderLine, str]

omit [Unicode] in
/-- A comment around the template's justification line. -/
theorem injectedComment_placeholder (cveId reason : Str) :
    injectedComment cveId requiredBlock reason =
      ((str "**VAT template injected** (" ++ (reason ++ str ")\n\n[VAT] " ++ cveId)) ++
        '\n' :: optionLine) ++
        '\n' :: (placeholderLine ++ '\n' :: str "compensating-controls: <optional>") := by
  rw [injectedComment_requiredBlock]
  simp [requiredText, optionLine, placeholderLine, str]

/-- The text above the status line of an issue body. -/
theorem noJustification_aboveStatus {f : IssueFinding} (hf : ∀ s ∈ f.ownTexts, NoJustification s) :
    NoJustification (Str.join '\n' (f.details ++ [str "---", [], str "[VAT] " ++ f.shownCve]) ++
      '\n' :: optionLine) := by
  have cve := (hf f.shownCve (by simp [IssueFinding.ownTexts])).prepend
    (show Label (str "[VAT] ") by decide)
  have rule : NoJustification (str "---") := Label.noJustification (by decide)
  refine (NoJustification.join ?_).append (Label.noJustification (by decide))
  simp only [List.forall_mem_append, List.forall_mem_cons]
  exact ⟨noJustification_details hf, rule, noJustification_nil, cve, by simp⟩

/-- The text above the status line of a comment. -/
theorem noJustification_aboveComment {cveId reason : Str} (hcve : NoJustification cveId)
    (hreason : NoJustification reason) :
    NoJustification
      ((str "**VAT template injected** (" ++ (reason ++ str ")\n\n[VAT] " ++ cveId)) ++
        '\n' :: optionLine) := by
  have first := (hreason.prepend (show Label (str "**VAT template injected** (") by decide)).close
    (by decide) (show '\n' ∉ [')'] by decide)
  have block := hcve.prepend (show Label (str "[VAT] ") by decide)
  have text := (first.append (noJustification_nil.append block)).append
    (t := optionLine) (Label.noJustification (by decide))
  simpa [str] using text

omit [Unicode] in
theorem shownCve_ne_nil (f : IssueFinding) : f.shownCve ≠ [] := by
  rw [IssueFinding.shownCve, IssueFinding.orText]
  split
  · decide
  · assumption

section ReadBack

variable [UpperCase] [CharTables] [TextMatching]

/-- VAT reads its own template as a decision: with the identifier of the finding as hint always, and
without it wherever the identifier is one word. -/
theorem required_block_read_back (f : IssueFinding) (reason : Str)
    (hf : ∀ s ∈ f.ownTexts, NoJustification s) (hreason : NoJustification reason) :
    (parseVatBlock (buildIssueBody f requiredBlock) (some f.shownCve) ≠ none ∧
      parseVatBlock (injectedComment f.shownCve requiredBlock reason) (some f.shownCve) ≠ none) ∧
    ((∀ c ∈ f.shownCve, Str.isSpace c = false) → ∀ hint,
      parseVatBlock (buildIssueBody f requiredBlock) hint ≠ none ∧
        parseVatBlock (injectedComment f.shownCve requiredBlock reason) hint ≠ none) := by
  have hne := shownCve_ne_nil f
  refine ⟨⟨?_, ?_⟩, fun hcve hint => ⟨?_, ?_⟩⟩
  · rw [buildIssueBody_placeholder]
    exact parseVatBlock_of_noJustification hne (noJustification_aboveStatus hf)
      (noJustification_afterPlaceholder hf)
  · rw [injectedComment_placeholder]
    exact parseVatBlock_of_noJustification hne
      (noJustification_aboveComment (hf _ (by simp [IssueFinding.ownTexts])) hreason)
      (Label.noJustification (by decide))
  · obtain ⟨before, after, hbody⟩ := buildIssueBody_requiredBlock f
    rw [hbody]
    exact parseVatBlock_requiredText before after (by decide) (by decide) hne hcve hint
  · rw [injectedComment_requiredBlock, ← List.append_nil (requiredText f.shownCve)]
    exact parseVatBlock_requiredText _ [] (by decide) (by decide) hne hcve hint

end ReadBack

end General

section OpenSsl

attribute [local instance] asciiUnicode asciiUpperCase asciiCharTables noTextMatching

/-- A finding in a package. -/
def openSslFinding : IssueFinding where
  cveId := some (str "CVE-2024-1234")
  severity := some (str "High")
  component := some (str "openssl")

/-- The text of the template for the finding is read as a decision. -/
theorem required_block_read_back_openSsl :
    (parseVatBlock (buildIssueBody openSslFinding requiredBlock)
        (some openSslFinding.shownCve) ≠ none ∧
      parseVatBlock (injectedComment openSslFinding.shownCve requiredBlock
        (str "watched label applied")) (some openSslFinding.shownCve) ≠ none) ∧
    ((∀ c ∈ openSslFinding.shownCve, Str.isSpace c = false) → ∀ hint,
      parseVatBlock (buildIssueBody openSslFinding requiredBlock) hint ≠ none ∧
        parseVatBlock (injectedComment openSslFinding.shownCve requiredBlock
          (str "watched label applied")) hint ≠ none) := by
  refine required_block_read_back openSslFinding (str "watched label applied") ?_ ?_
  · have plain : ∀ s ∈ openSslFinding.ownTexts, s = [] ∨ Label s := by decide
    exact fun s hs => (plain s hs).elim (fun h => h ▸ noJustification_nil) Label.noJustification
  · exact Label.noJustification (by decide)

/-- A text in which nothing of a block occurs. -/
def Unrelated (s : Str) : Prop :=
  ∀ w ∈ [str "[vat]", str "status", str "justification"], ¬ w <:+: Unicode.lower s

/-- Nothing in this finding looks like a block, and yet its issue and the comment on it are read as
decisions. -/
theorem not_untouched_ignored :
    ¬ ∀ f : IssueFinding, (∀ s ∈ f.ownTexts, Unrelated s) →
      (∀ hint ∈ [some f.shownCve, none],
        parseVatBlock (buildIssueBody f requiredBlock) hint = none) ∧
      ∀ hint ∈ [some f.shownCve, none], parseVatBlock
        (injectedComment f.shownCve requiredBlock (str "watched label applied")) hint = none := by
  intro h
  have unrelated : ∀ s ∈ openSslFinding.ownTexts, Unrelated s := by
    unfold Unrelated
    decide
  have noBlank : (openSslFinding.shownCve.all fun c => !Str.isSpace c) = true := by decide
  have oneWord : ∀ c ∈ openSslFinding.shownCve, Str.isSpace c = false := fun c hc => by
    simpa using List.all_eq_true.mp noBlank c hc
  obtain ⟨before, after, hbody⟩ := buildIssueBody_requiredBlock openSslFinding
  refine parseVatBlock_requiredText before after (x := '-') (by decide) (by decide)
    (shownCve_ne_nil openSslFinding) oneWord none ?_
  rw [← hbody]
  exact (h openSslFinding unrelated).1 none (by simp)

end OpenSsl

end Vat

import KGuardian.ManifestText

/-!
Manifests by their lines: which texts the lines carry and how each is written, and when the
whole text is read back as the value it was written for.
-/
namespace KGuardian.WrittenManifests

open BlockYaml ManifestText Selectors

/-- A text of a manifest: a value and a key are quoted where that is needed, the others are
written as they are, some of them between quotes. -/
inductive Text where
  | value (text : String)
  | key (text : String)
  | raw (text : String)
  | inQuotes (text : String)

def between (text : List Char) : List Char := '"' :: (text ++ ['"'])

def Text.Holds (P Q : List Char → Prop) : Text → Prop
  | .value text => P text.toList
  | .key text => Q text.toList
  | .raw text => P text.toList
  | .inQuotes text => P text.toList

variable (r : Resolution)

/-- A value is read as itself, where it is written. -/
def Text.Comes : Text → Prop
  | .value text => Safe r text.toList
  | .key _ => True
  | .raw text => scalarOf r text.toList = some (.str text.toList)
  | .inQuotes text => scalarOf r (between text.toList) = some (.str text.toList)

/-- What each text needs to come back. -/
def Text.Ok : Text → Prop
  | .value text => TextOk r text.toList
  | .key text => KeyOk r text.toList
  | .raw text => RawOk r text.toList
  | .inQuotes text => Readable text.toList ∧ '"' ∉ text.toList ∧ '\\' ∉ text.toList

/-- A consumer may take null for an empty collection. -/
def Filled {α : Type*} (lenient : Bool) (l : List α) : Prop := lenient = true ∨ l ≠ []

/-- The lines of a manifest, with what holds of their texts. -/
inductive Written (T : Text → Prop) : List Char → Prop where
  | header (n : ℕ) {name : String} (hname : isWord name.toList = true) :
      Written T (field n name.toList [])
  | value (n : ℕ) {name text : String} (hname : isWord name.toList = true)
      (h : T (.value text)) : Written T (field n name.toList (' ' :: quoteYamlValue text.toList))
  | raw (n : ℕ) {name text : String} (hname : isWord name.toList = true) (h : T (.raw text)) :
      Written T (field n name.toList (' ' :: text.toList))
  | inQuotes (n : ℕ) {name text : String} (hname : isWord name.toList = true)
      (h : T (.inQuotes text)) : Written T (field n name.toList (' ' :: between text.toList))
  | fixed (n : ℕ) {name : String} {text : List Char} (hname : isWord name.toList = true)
      (hreadable : Readable text) {s : Scalar} (h : scalarOf r text = some s) :
      Written T (field n name.toList (' ' :: text))
  | label (n : ℕ) {k v : String} (hkey : T (.key k)) (hvalue : T (.value v)) :
      Written T (label n k.toList v.toList)
  | dash (n : ℕ) : Written T (dash n)
  | quote (n : ℕ) {text : String} (h : T (.value text)) :
      Written T (indent n ++ quoteYamlValue text.toList)
  | word (n : ℕ) {w : List Char} (hword : isWord w = true) : Written T (indent n ++ w)
  | dashed (n : ℕ) {text : List Char} (h : Written T (indent (n + 2) ++ text)) :
      Written T (dashed n text)

variable {r}

/-! Text between quotes as it is. -/

theorem length_quoted {text s rest : List Char} (h : quoted text = some (s, rest)) :
    s.length + rest.length < text.length := by
  induction text using quoted.induct generalizing s with
  | case1 => cases h
  | case2 after =>
      obtain ⟨rfl, rfl⟩ := Prod.mk.inj (Option.some.inj h)
      simp
  | case3 => cases h
  | case4 c after hc ih =>
      rw [quoted, if_pos hc] at h
      obtain ⟨p, hp, heq⟩ := Option.map_eq_some_iff.mp h
      obtain ⟨rfl, rfl⟩ := Prod.mk.inj heq
      have := ih hp
      simp only [List.length_cons]
      omega
  | case5 c after hc =>
      rw [quoted, if_neg hc] at h
      cases h
  | case6 c after hquote hend hescape ih =>
      rw [quoted] at h
      · obtain ⟨p, hp, heq⟩ := Option.map_eq_some_iff.mp h
        obtain ⟨rfl, rfl⟩ := Prod.mk.inj heq
        have := ih hp
        simp only [List.length_cons]
        omega
      all_goals simp_all

theorem quoted_between_iff (text : List Char) :
    quoted (text ++ ['"']) = some (text, []) ↔ '"' ∉ text ∧ '\\' ∉ text := by
  induction text with
  | nil => simp [quoted]
  | cons c text ih =>
      rw [List.cons_append]
      by_cases hquote : c = '"'
      · subst hquote
        simp [quoted]
      · by_cases hslash : c = '\\'
        · subst hslash
          refine iff_of_false (fun h => ?_) (by simp)
          obtain ⟨d, rest, hrest⟩ := List.exists_cons_of_ne_nil (l := text ++ ['"']) (by simp)
          rw [hrest, quoted] at h
          split at h
          · obtain ⟨p, hp, heq⟩ := Option.map_eq_some_iff.mp h
            obtain ⟨hcons, -⟩ := Prod.mk.inj heq
            have hlength := length_quoted hp
            have hp1 := congrArg List.length (List.cons.inj hcons).2
            have htotal := congrArg List.length hrest
            simp only [List.length_append, List.length_cons, List.length_nil] at htotal
            omega
          · cases h
        · have hstep : quoted (c :: (text ++ ['"'])) =
              (quoted (text ++ ['"'])).map fun p => (c :: p.1, p.2) := by
            rw [quoted]
            all_goals simp_all
          have hne : '"' ≠ c ∧ '\\' ≠ c := ⟨fun h => hquote h.symm, fun h => hslash h.symm⟩
          rw [hstep, Option.map_eq_some_iff, List.mem_cons, List.mem_cons, not_or, not_or,
            and_iff_right hne.1, and_iff_right hne.2, ← ih]
          constructor
          · rintro ⟨p, hp, heq⟩
            obtain ⟨hcons, hrest⟩ := Prod.mk.inj heq
            rw [hp, ← (List.cons.inj hcons).2, ← hrest]
          · intro h
            exact ⟨_, h, rfl⟩

theorem scalarOf_between_iff (text : List Char) :
    scalarOf r (between text) = some (.str text) ↔ '"' ∉ text ∧ '\\' ∉ text := by
  rw [← quoted_between_iff, between, scalarOf, trim_quoted]
  constructor
  · intro h
    obtain ⟨p, hp, hend⟩ := Option.bind_eq_some_iff.mp h
    obtain ⟨hrest, hstr⟩ := Option.ite_none_right_eq_some.mp hend
    have hfst : p.1 = text := Scalar.str.inj (Option.some.inj hstr)
    rw [hp, ← hfst, ← hrest]
  · intro h
    show (quoted (text ++ ['"'])).bind _ = _
    rw [h]
    rfl

/-- A text as it is comes back as a plain scalar or not at all, since quotes are taken off. -/
theorem rawOk_iff {text : List Char} :
    RawOk r text ↔ Readable text ∧ scalarOf r text = some (.str text) := by
  constructor
  · rintro ⟨hreadable, htrim, hstart, hkey, hcomment, hplain⟩
    refine ⟨hreadable, ?_⟩
    rw [scalarOf, htrim]
    split
    · cases hstart
    · rename_i rest
      have hquote : startsPlain ('"' :: rest) = false := rfl
      rw [hquote] at hstart
      cases hstart
    · rw [hstart, hkey, hcomment, hplain]
      rfl
  · rintro ⟨hreadable, hscalar⟩
    rw [scalarOf] at hscalar
    split at hscalar
    · cases hscalar
    · rename_i rest htrim
      obtain ⟨p, hp, hend⟩ := Option.bind_eq_some_iff.mp hscalar
      obtain ⟨-, hstr⟩ := Option.ite_none_right_eq_some.mp hend
      have htext : p.1 = text := Scalar.str.inj (Option.some.inj hstr)
      have hshort := length_quoted hp
      have hlong := length_trim_le text
      rw [htrim, List.length_cons, ← htext] at hlong
      omega
    · rename_i c rest _ htrim
      obtain ⟨hconditions, hplain⟩ := Option.ite_none_right_eq_some.mp hscalar
      have htext : text = c :: rest := r.text _ _ (Option.some.inj hplain)
      simp only [Bool.and_eq_true, Bool.not_eq_true', Option.isNone_iff_eq_none] at hconditions
      rw [← htext] at hconditions hplain htrim
      exact ⟨hreadable, htrim, hconditions.1.1, hconditions.1.2, hconditions.2,
        Option.some.inj hplain⟩

/-! What a line has. -/

theorem quoteYamlValue_word {w : List Char} (h : isWord w = true) : quoteYamlValue w = w :=
  quoteYamlValue_plain (not_special_of_isWord h)

theorem Written.keysSafe {T : Text → Prop} {line : List Char} (h : Written r T line) :
    KeysSafe r line := by
  induction h with
  | header n hname => exact keysSafe_field hname rfl
  | value n hname h => exact keysSafe_field hname rfl
  | raw n hname h => exact keysSafe_field hname rfl
  | inQuotes n hname h => exact keysSafe_field hname rfl
  | fixed n hname hreadable h => exact keysSafe_field hname rfl
  | label n hkey hvalue => exact keysSafe_label n _ _
  | dash n => exact keysSafe_dash n
  | quote n h => exact keysSafe_quote n _
  | word n hword =>
      rw [← quoteYamlValue_word hword]
      exact keysSafe_quote n _
  | dashed n h ih => exact keysSafe_dashed ih

theorem readable_field {n : ℕ} {name rest : List Char} (hname : isWord name = true)
    (h : Readable rest) : Readable (field n name rest) := by
  rw [field, readable_append, readable_append]
  refine ⟨readable_indent n, readable_of_isWord hname, ?_⟩
  exact List.forall_mem_cons.mpr ⟨by decide, h⟩

theorem readable_space {text : List Char} (h : Readable text) : Readable (' ' :: text) :=
  List.forall_mem_cons.mpr ⟨by decide, h⟩

theorem readable_between {text : List Char} (h : Readable text) : Readable (between text) := by
  refine List.forall_mem_cons.mpr ⟨by decide, readable_append.mpr ⟨h, ?_⟩⟩
  exact List.forall_mem_singleton.mpr (by decide)

theorem Written.readable {line : List Char}
    (h : Written r (fun t => t.Holds Readable Readable) line) : Readable line := by
  induction h with
  | header n hname => exact readable_field hname fun c hc => absurd hc List.not_mem_nil
  | value n hname h => exact readable_field hname (readable_space (readable_quote h))
  | raw n hname h => exact readable_field hname (readable_space h)
  | inQuotes n hname h => exact readable_field hname (readable_space (readable_between h))
  | fixed n hname hreadable h => exact readable_field hname (readable_space hreadable)
  | label n hkey hvalue =>
      refine readable_append.mpr ⟨readable_indent n, readable_append.mpr ?_⟩
      refine ⟨readable_quote hkey, List.forall_mem_cons.mpr ⟨by decide, ?_⟩⟩
      exact readable_space (readable_quote hvalue)
  | dash n =>
      exact readable_append.mpr ⟨readable_indent n, List.forall_mem_singleton.mpr (by decide)⟩
  | quote n h => exact readable_append.mpr ⟨readable_indent n, readable_quote h⟩
  | word n hword => exact readable_append.mpr ⟨readable_indent n, readable_of_isWord hword⟩
  | dashed n h ih =>
      refine readable_append.mpr ⟨readable_indent n, ?_⟩
      exact List.forall_mem_cons.mpr ⟨by decide, readable_space (readable_append.mp ih).2⟩

theorem exists_quote {n : ℕ} {value : List Char} (h : Readable value) :
    ∃ tokens, lineTokens r (indent n ++ quoteYamlValue value) = some tokens := by
  obtain ⟨tokens, htokens, -⟩ := tokensAt_quote (r := r) (n := n) value
  exact ⟨tokens, by rw [lineTokens_indent (readable_quote h), htokens]⟩

theorem Written.exists_tokens {line : List Char} (h : Written r (fun t => t.Ok r) line) :
    ∃ tokens, lineTokens r line = some tokens := by
  induction h with
  | header n hname =>
      exact exists_field hname rfl (fun c hc => absurd hc List.not_mem_nil) rfl
  | value n hname h =>
      apply exists_field hname rfl (readable_space (readable_quote h.1))
      rw [scalarOf_space, scalarOf_quote]
  | raw n hname h =>
      obtain ⟨hreadable, hscalar⟩ := rawOk_iff.mp h
      apply exists_field hname rfl (readable_space hreadable)
      rw [scalarOf_space, hscalar]
  | inQuotes n hname h =>
      apply exists_field hname rfl (readable_space (readable_between h.1))
      rw [scalarOf_space, (scalarOf_between_iff _).mpr h.2]
  | fixed n hname hreadable h =>
      apply exists_field hname rfl (readable_space hreadable)
      rw [scalarOf_space, h]
  | label n hkey hvalue => exact exists_label hkey hvalue.1
  | dash n => exact ⟨_, lineTokens_dashAlone n⟩
  | quote n h => exact exists_quote h.1
  | word n hword =>
      rw [← quoteYamlValue_word hword]
      exact exists_quote (readable_of_isWord hword)
  | dashed n h ih => exact exists_dashed ih

/-! The whole text. -/

theorem Text.ok_iff (t : Text) :
    t.Ok r ↔ t.Holds Readable (fun key => Readable key ∧ SafeKey r key) ∧ t.Comes r := by
  cases t with
  | value text =>
      show TextOk r _ ↔ Readable _ ∧ Safe r _
      rw [TextOk, Safe, valueOf_eq_str_iff]
  | key text =>
      show KeyOk r _ ↔ (Readable _ ∧ SafeKey r _) ∧ True
      rw [KeyOk, TextOk, SafeKey, Safe, valueOf_eq_str_iff, length_quoteYamlValue, and_true,
        and_assoc]
  | raw text =>
      show RawOk r _ ↔ Readable _ ∧ scalarOf r _ = _
      rw [rawOk_iff]
  | inQuotes text =>
      show Readable _ ∧ _ ↔ Readable _ ∧ scalarOf r _ = _
      rw [scalarOf_between_iff]

theorem Text.Holds.mono {P P' Q Q' : List Char → Prop} {t : Text} (h : t.Holds P Q)
    (hP : ∀ text, P text → P' text) (hQ : ∀ text, Q text → Q' text) : t.Holds P' Q' := by
  cases t with
  | value text => exact hP _ h
  | key text => exact hQ _ h
  | raw text => exact hP _ h
  | inQuotes text => exact hP _ h

theorem Text.Holds.keys {P P' Q Q' : List Char → Prop} {t : Text} (h : t.Holds P Q)
    (h' : t.Holds P' Q') : t.Holds P (fun key => Q key ∧ Q' key) := by
  cases t with
  | value text => exact h
  | key text => exact ⟨h, h'⟩
  | raw text => exact h
  | inQuotes text => exact h

/-- A manifest is read back exactly when each of its texts is and its collections are such as
the consumer takes. The tree that is read for the lines, and what the consumer makes of it,
are given. -/
theorem read_join_iff {α : Type*} {lines : List (List Char)} {entries : List (Scalar × Node)}
    {texts : List Text} {decode : Node → Option α} {a : α} {Shape : Prop}
    (hwritten : ∀ T : Text → Prop, (∀ t ∈ texts, T t) → ∀ line ∈ lines, Written r T line)
    (hreads : (∀ t ∈ texts, t.Holds (fun _ => True) (Safe r)) → ReadsAs r 0 lines entries)
    (hall : ∀ (P Q : List Char → Prop) (v : Node), v.All P Q → decode v = some a →
      ∀ t ∈ texts, t.Holds P Q)
    (hdecode : decode (.map entries) = some a ↔ (∀ t ∈ texts, t.Comes r) ∧ Shape)
    (hlines : lines ≠ []) (hentries : entries ≠ []) :
    (read r (['\n'].intercalate lines)).bind decode = some a ↔
      (∀ t ∈ texts, t.Ok r) ∧ Shape := by
  constructor
  · intro h
    obtain ⟨v, hread, hv⟩ := Option.bind_eq_some_iff.mp h
    have hreadable := hall Readable Readable v (readable_read hread) hv
    have hlinesOf := linesOf_join (fun line hline => (hwritten _ hreadable line hline).readable)
      hlines
    have hkeys : ∀ t ∈ texts, t.Holds (fun _ => True) (SafeKey r) := by
      refine hall _ _ v (all_read (fun line hline => ?_) hread) hv
      rw [hlinesOf] at hline
      exact (hwritten (fun _ => True) (fun _ _ => trivial) line hline).keysSafe
    obtain ⟨tokens, htokens, hbuild⟩ := Option.bind_eq_some_iff.mp hread
    rw [hlinesOf] at htokens
    have htree := hreads (fun t ht => (hkeys t ht).mono (fun _ _ => trivial) fun _ hk => hk.1)
      tokens htokens
    have hv' : v = .map entries :=
      Option.some.inj (hbuild.symm.trans (build_entries htree hentries))
    rw [hv'] at hv
    obtain ⟨hcomes, hshape⟩ := hdecode.mp hv
    refine ⟨fun t ht => (Text.ok_iff t).mpr ⟨?_, hcomes t ht⟩, hshape⟩
    exact (hreadable t ht).keys (hkeys t ht)
  · rintro ⟨hok, hshape⟩
    have hparts := fun t ht => (Text.ok_iff t).mp (hok t ht)
    have hlinesOf : linesOf (['\n'].intercalate lines) = lines := by
      refine linesOf_join (fun line hline => (hwritten _ (fun t ht => ?_) line hline).readable)
        hlines
      exact (hparts t ht).1.mono (fun _ hP => hP) fun _ hQ => hQ.1
    obtain ⟨tokens, htokens⟩ := exists_tokensOf (r := r) fun line hline =>
      (hwritten _ hok line hline).exists_tokens
    have htree : Entries 0 tokens entries := by
      refine hreads (fun t ht => ?_) tokens htokens
      exact (hparts t ht).1.mono (fun _ _ => trivial) fun _ hQ => hQ.2.1
    rw [BlockYaml.read, hlinesOf, htokens, Option.bind_some, build_entries htree hentries,
      Option.bind_some]
    exact hdecode.mpr ⟨fun t ht => (hparts t ht).2, hshape⟩

/-! Labels and lists by their texts. -/

def labelTexts (labels : Labels) : List Text :=
  labels.entries.flatMap fun e => [.key e.1, .value e.2]

theorem forall_labelTexts {T : Text → Prop} {labels : Labels} :
    (∀ t ∈ labelTexts labels, T t) ↔ ∀ e ∈ labels.entries, T (.key e.1) ∧ T (.value e.2) := by
  rw [labelTexts, List.forall_mem_flatMap]
  refine forall₂_congr fun e _ => ?_
  rw [List.forall_mem_cons, List.forall_mem_singleton]

theorem written_labels {T : Text → Prop} {labels : Labels} (h : ∀ t ∈ labelTexts labels, T t)
    (n : ℕ) : ∀ line ∈ labelLines n labels, Written r T line := by
  intro line hline
  obtain ⟨e, he, rfl⟩ := List.mem_map.mp hline
  obtain ⟨hkey, hvalue⟩ := forall_labelTexts.mp h e he
  exact .label n hkey hvalue

theorem written_selector {T : Text → Prop} {labels : Labels}
    (h : ∀ t ∈ labelTexts labels, T t) (n : ℕ) {name : String}
    (hname : isWord name.toList = true) :
    ∀ line ∈ selectorLines n name labels, Written r T line := by
  refine List.forall_mem_cons.mpr ⟨.header n hname, List.forall_mem_cons.mpr ⟨?_, ?_⟩⟩
  · exact .header (n + 2) (by decide)
  · exact written_labels h (n + 4)

theorem keysOk_of_texts {labels : Labels}
    (h : ∀ t ∈ labelTexts labels, t.Holds (fun _ => True) (Safe r)) : KeysOk r labels :=
  fun e he => (forall_labelTexts.mp h e he).1

theorem all_labelTexts {P Q : List Char → Prop} {labels : Labels} (h : LabelsHold P Q labels) :
    ∀ t ∈ labelTexts labels, t.Holds P Q :=
  forall_labelTexts.mpr fun e he => h e he

theorem selectorOf_iff (lenient : Bool) (labels : Labels) :
    selectorOf lenient (selectorNode r labels) = some labels ↔
      (∀ t ∈ labelTexts labels, t.Comes r) ∧ Filled lenient labels.entries := by
  rw [selectorOf_selectorNode_iff, SelectorOk, forall_labelTexts]
  simp only [Text.Comes, true_and, Filled]

theorem written_list {α : Type*} {T : Text → Prop} {n : ℕ} {name : String}
    (hname : isWord name.toList = true) {f : α → List (List Char)} {l : List α}
    (h : ∀ a ∈ l, ∀ line ∈ f a, Written r T line) :
    ∀ line ∈ listLines n name f l, Written r T line := by
  unfold listLines
  split
  · exact fun line hline => absurd hline List.not_mem_nil
  · exact List.forall_mem_cons.mpr ⟨.header n hname, List.forall_mem_flatMap.mpr h⟩

theorem written_option {α : Type*} {T : Text → Prop} {f : α → List (List Char)} {o : Option α}
    (h : ∀ a ∈ o, ∀ line ∈ f a, Written r T line) :
    ∀ line ∈ o.elim [] f, Written r T line := by
  cases o with
  | none => exact fun line hline => absurd hline List.not_mem_nil
  | some a => exact h a rfl

/-! Texts as fields and as items. -/

def quotedField (n : ℕ) (name value : String) : List Char :=
  field n name.toList (' ' :: quoteYamlValue value.toList)

def textNode (r : Resolution) (text : String) : Node := .scalar (valueOf r text.toList)

theorem indent_field (n : ℕ) (name rest : List Char) :
    indent n ++ field 0 name rest = field n name rest := rfl

theorem textOf_textNode_iff {text : String} :
    textOf (textNode r text) = some text ↔ Text.Comes r (.value text) :=
  textOf_valueOf_self_iff

theorem all_value {P Q : List Char → Prop} {name text : String}
    {entries : List (Scalar × Node)} (hentries : ∀ e ∈ entries, e.1.Holds Q ∧ e.2.All P Q)
    (h : required name textOf entries = some text) : (Text.value text).Holds P Q := by
  obtain ⟨v, hv, htext⟩ := all_required hentries h
  exact all_textOf hv htext

theorem all_listOf_text {lenient : Bool} {P Q : List Char → Prop} {v : Node}
    (hv : v.All P Q) {l : List String} (h : listOf lenient textOf v = some l) :
    ∀ t ∈ l.map Text.value, t.Holds P Q := by
  rw [List.forall_mem_map]
  intro s hs
  obtain ⟨w, hw, htext⟩ := all_listOf hv h s hs
  exact all_textOf hw htext

/-- A field whose value is written without the quotes that it might need. -/
theorem textOf_restOf_iff {text : List Char} {s : String} :
    textOf (.scalar (restOf r (' ' :: text))) = some s ↔
      scalarOf r text = some (.str s.toList) := by
  rw [restOf, scalarOf_space]
  cases scalarOf r text with
  | none => simp [textOf]
  | some v =>
      cases v with
      | str t =>
          simp only [textOf, Option.getD_some, Option.some.injEq, Scalar.str.injEq]
          constructor
          · rintro rfl
            exact String.toList_ofList.symm
          · rintro rfl
            exact String.ofList_toList
      | _ => simp [textOf]

/-! Fields that are looked up by their name. -/

theorem find_cons_self (name : String) (v : Node) (entries : List (Scalar × Node)) :
    find name ((key name, v) :: entries) = some v := by
  simp [find]

theorem find_cons_ne {name other : String} (h : other ≠ name) (v : Node)
    (entries : List (Scalar × Node)) :
    find name ((key other, v) :: entries) = find name entries := by
  have hkey : key other ≠ key name := fun hkey => h (String.toList_inj.mp (Scalar.str.inj hkey))
  simp [find, hkey]

theorem entriesOf_map (lenient : Bool) (entries : List (Scalar × Node)) :
    entriesOf lenient (.map entries) = some entries := rfl

theorem required_cons_self {α : Type*} (name : String) (f : Node → Option α) (v : Node)
    (entries : List (Scalar × Node)) : required name f ((key name, v) :: entries) = f v := by
  rw [required, find_cons_self, Option.bind_some]

theorem required_cons_ne {α : Type*} {name other : String} (h : other ≠ name)
    (f : Node → Option α) (v : Node) (entries : List (Scalar × Node)) :
    required name f ((key other, v) :: entries) = required name f entries := by
  rw [required, find_cons_ne h, required]

theorem find_entry_ne {name other : String} (h : other ≠ name) (v : Option Node)
    (entries : List (Scalar × Node)) :
    find name (entry other v ++ entries) = find name entries := by
  cases v with
  | none => rfl
  | some v => exact find_cons_ne h v entries

theorem find_entry {name : String} (v : Option Node) {entries : List (Scalar × Node)}
    (h : find name entries = none) : find name (entry name v ++ entries) = v := by
  cases v with
  | none => exact h
  | some v => exact find_cons_self name v entries

theorem find_last_ne {name other : String} (h : other ≠ name) (v : Option Node) :
    find name (entry other v) = none := by
  rw [← List.append_nil (entry other v), find_entry_ne h]
  rfl

theorem find_last (name : String) (v : Option Node) : find name (entry name v) = v := by
  rw [← List.append_nil (entry name v)]
  exact find_entry v rfl

/-! What is read back as it was. -/

/-- What an optional part needs, by its texts and its collections. -/
theorem option_iff {α : Type*} {o : Option α} {texts : α → List Text} {A F : α → Prop}
    {T : Text → Prop} (h : ∀ a, A a ↔ (∀ t ∈ texts a, T t) ∧ F a) :
    (∀ a ∈ o, A a) ↔ (∀ t ∈ o.elim [] texts, T t) ∧ ∀ a ∈ o, F a := by
  cases o with
  | none => simp
  | some a => simpa using h a

/-- What the members of a list need, likewise. -/
theorem list_iff {α : Type*} {l : List α} {texts : α → List Text} {A F : α → Prop}
    {T : Text → Prop} (h : ∀ a, A a ↔ (∀ t ∈ texts a, T t) ∧ F a) :
    (∀ a ∈ l, A a) ↔ (∀ t ∈ l.flatMap texts, T t) ∧ ∀ a ∈ l, F a := by
  rw [List.forall_mem_flatMap, ← forall₂_and]
  exact forall₂_congr fun a _ => h a

theorem optional_self_iff {α : Type*} {name : String} {f : Node → Option α}
    {entries : List (Scalar × Node)} {o : Option α} {g : α → Node}
    (hfind : find name entries = o.map g) :
    optional name f entries = some o ↔ ∀ a ∈ o, f (g a) = some a := by
  have h := optional_eq_some_iff (f := f) (h := id) hfind
  rwa [Option.map_id, id] at h

theorem listOf_self_iff {α : Type*} {lenient : Bool} {f : Node → Option α} {g : α → Node}
    {l : List α} :
    listOf lenient f (seqNode (l.map g)) = some l ↔
      (∀ a ∈ l, f (g a) = some a) ∧ Filled lenient l := by
  have h := @listOf_seqNode_iff α α lenient f g id l
  rwa [List.map_id] at h

theorem listField_self_iff {α : Type*} {lenient : Bool} {name : String} {f : Node → Option α}
    {entries : List (Scalar × Node)} {l : List α} {g : α → Node}
    (hfind : find name entries = if l.isEmpty then none else some (seqNode (l.map g))) :
    listField lenient name f entries = some l ↔ ∀ a ∈ l, f (g a) = some a := by
  have h := @listField_eq_some_iff α α lenient name f entries l g id hfind
  rwa [List.map_id] at h

theorem listOf_text_iff {lenient : Bool} (l : List String) :
    listOf lenient textOf (seqNode (l.map (textNode r))) = some l ↔
      (∀ t ∈ l.map Text.value, t.Comes r) ∧ Filled lenient l := by
  rw [listOf_self_iff, List.forall_mem_map]
  simp only [textOf_textNode_iff]

/-- An optional list, which is left out also when it is there and empty. A consumer may take
both for the same. -/
def shownList {α : Type*} (lenient : Bool) (o : Option (List α)) : Option (List α) :=
  if lenient then some (o.getD []) else o

def optionalList {α : Type*} (lenient : Bool) (name : String) (f : Node → Option α)
    (entries : List (Scalar × Node)) : Option (Option (List α)) :=
  (optional name (listOf lenient f) entries).map (shownList lenient)

def ListShown {α : Type*} (lenient : Bool) (o : Option (List α)) : Prop :=
  lenient = true ∨ o ≠ some []

theorem optionalList_iff {α β : Type*} {lenient : Bool} {name : String} {f : Node → Option β}
    {entries : List (Scalar × Node)} {o : Option (List α)} {g : α → Node} {h : α → β}
    (hfind : find name entries =
      if (o.getD []).isEmpty then none else some (seqNode ((o.getD []).map g))) :
    optionalList lenient name f entries = some (shownList lenient (o.map (List.map h))) ↔
      (∀ a ∈ o.getD [], f (g a) = some (h a)) ∧ ListShown lenient o := by
  unfold optionalList ManifestText.optional ListShown
  rw [hfind]
  match o with
  | none => simp
  | some [] => cases lenient <;> simp [shownList]
  | some (a :: l) =>
      have hlist := @listOf_seqNode_iff α β lenient f g h (a :: l)
      rw [and_iff_left (.inr (List.cons_ne_nil a l))] at hlist
      rw [Option.getD_some, and_iff_left (.inr (by simp)), ← hlist]
      cases lenient <;> simp [shownList, Option.map_eq_some_iff]

theorem getD_shownList {α : Type*} (lenient : Bool) (o : Option (List α)) :
    (shownList lenient o).getD [] = o.getD [] := by
  cases lenient <;> rfl

theorem optionalList_self_iff {α : Type*} {lenient : Bool} {name : String} {f : Node → Option α}
    {entries : List (Scalar × Node)} {o : Option (List α)} {g : α → Node}
    (hfind : find name entries =
      if (o.getD []).isEmpty then none else some (seqNode ((o.getD []).map g))) :
    optionalList lenient name f entries = some (shownList lenient o) ↔
      (∀ a ∈ o.getD [], f (g a) = some a) ∧ ListShown lenient o := by
  have h := @optionalList_iff α α lenient name f entries o g id hfind
  rwa [List.map_id_fun, Option.map_id, id] at h

theorem all_optionalList {P Q : List Char → Prop} {α β : Type*} {lenient : Bool} {name : String}
    {f : Node → Option β} {entries : List (Scalar × Node)}
    (hentries : ∀ e ∈ entries, e.1.Holds Q ∧ e.2.All P Q) {o : Option (List α)} {g : α → β}
    (h : optionalList lenient name f entries = some (shownList lenient (o.map (List.map g)))) :
    ∀ a ∈ o.getD [], ∃ v, v.All P Q ∧ f v = some (g a) := by
  obtain ⟨o', ho', hsame⟩ := Option.map_eq_some_iff.mp h
  have hlists := congrArg (fun o => o.getD []) hsame
  simp only [getD_shownList] at hlists
  intro a ha
  have hmem : g a ∈ o'.getD [] := by
    rw [hlists]
    cases o with
    | none => exact absurd ha List.not_mem_nil
    | some l => exact List.mem_map_of_mem ha
  cases o' with
  | none => exact absurd hmem List.not_mem_nil
  | some l =>
      obtain ⟨v, hv, hl⟩ := all_optional hentries ho' l rfl
      exact all_listOf hv hl (g a) hmem

theorem all_optionalList_self {P Q : List Char → Prop} {α : Type*} {lenient : Bool}
    {name : String} {f : Node → Option α} {entries : List (Scalar × Node)}
    (hentries : ∀ e ∈ entries, e.1.Holds Q ∧ e.2.All P Q) {o : Option (List α)}
    (h : optionalList lenient name f entries = some (shownList lenient o)) :
    ∀ a ∈ o.getD [], ∃ v, v.All P Q ∧ f v = some a := by
  have hmap : o.map (List.map id) = o := by rw [List.map_id_fun, Option.map_id, id]
  rw [← hmap] at h
  have hall := all_optionalList hentries h
  exact hall

theorem readsItems_lines {α : Type*} {c : ℕ} {f : α → List Char} {g : α → Node} {l : List α}
    (h : ∀ a ∈ l, ReadsItems r c [f a] [g a]) : ReadsItems r c (l.map f) (l.map g) := by
  rw [List.map_eq_flatMap]
  exact readsItems_flatMap h

/-! What every manifest starts with. -/

/-- The fields before the specification, and the entries of that. -/
structure Head where
  apiVersion : String
  kind : String
  name : String
  ns : String
  spec : List (Scalar × Node)

def headLines (apiVersion kind name ns : String) : List (List Char) :=
  [quotedField 0 "apiVersion" apiVersion, quotedField 0 "kind" kind,
    field 0 "metadata".toList [], quotedField 2 "name" name, quotedField 2 "namespace" ns,
    field 0 "spec".toList []]

def headTexts (apiVersion kind name ns : String) : List Text :=
  [.value apiVersion, .value kind, .value name, .value ns]

def headEntries (r : Resolution) (apiVersion kind name ns : String)
    (spec : List (Scalar × Node)) : List (Scalar × Node) :=
  [(key "apiVersion", textNode r apiVersion), (key "kind", textNode r kind),
    (key "metadata", .map [(key "name", textNode r name), (key "namespace", textNode r ns)]),
    (key "spec", mapNode spec)]

def headOf (lenient : Bool) (v : Node) : Option Head :=
  (entriesOf lenient v).bind fun entries =>
    (required "apiVersion" textOf entries).bind fun apiVersion =>
      (required "kind" textOf entries).bind fun kind =>
        (required "metadata" (entriesOf lenient) entries).bind fun metadata =>
          (required "name" textOf metadata).bind fun name =>
            (required "namespace" textOf metadata).bind fun ns =>
              (required "spec" (entriesOf lenient) entries).map fun spec =>
                ⟨apiVersion, kind, name, ns, spec⟩

section Head

variable {apiVersion kind name ns : String}

theorem written_head {T : Text → Prop} (h : ∀ t ∈ headTexts apiVersion kind name ns, T t) :
    ∀ line ∈ headLines apiVersion kind name ns, Written r T line := by
  unfold headTexts at h
  unfold headLines
  simp only [List.forall_mem_cons] at h ⊢
  obtain ⟨hapi, hkind, hname, hns, -⟩ := h
  exact ⟨.value 0 (by decide) hapi, .value 0 (by decide) hkind, .header 0 (by decide),
    .value 2 (by decide) hname, .value 2 (by decide) hns, .header 0 (by decide),
    fun line hline => absurd hline List.not_mem_nil⟩

theorem reads_head {lines : List (List Char)} {spec : List (Scalar × Node)}
    (h : ReadsAs r 2 lines spec) :
    ReadsAs r 0 (headLines apiVersion kind name ns ++ lines)
      (headEntries r apiVersion kind name ns spec) := by
  have hmetadata : ReadsAs r 0 [field 0 "metadata".toList [], quotedField 2 "name" name,
      quotedField 2 "namespace" ns]
      [(key "metadata", .map [(key "name", textNode r name), (key "namespace", textNode r ns)])] :=
    readsAs_map (by decide)
      ((readsAs_value (by decide) _).append (readsAs_value (by decide) _))
  have hspec : ReadsAs r 0 (field 0 "spec".toList [] :: lines) [(key "spec", mapNode spec)] :=
    readsAs_map (by decide) h
  exact (readsAs_value (by decide) _).append
    ((readsAs_value (by decide) _).append (hmetadata.append hspec))

theorem all_head {P Q : List Char → Prop} {lenient : Bool} {v : Node} (hv : v.All P Q)
    {head : Head} (h : headOf lenient v = some head) :
    (∀ t ∈ headTexts head.apiVersion head.kind head.name head.ns, t.Holds P Q) ∧
      ∀ e ∈ head.spec, e.1.Holds Q ∧ e.2.All P Q := by
  obtain ⟨entries, hentries, h⟩ := Option.bind_eq_some_iff.mp h
  obtain ⟨apiVersion, hapi, h⟩ := Option.bind_eq_some_iff.mp h
  obtain ⟨kind, hkind, h⟩ := Option.bind_eq_some_iff.mp h
  obtain ⟨metadata, hmetadata, h⟩ := Option.bind_eq_some_iff.mp h
  obtain ⟨name, hname, h⟩ := Option.bind_eq_some_iff.mp h
  obtain ⟨ns, hns, h⟩ := Option.bind_eq_some_iff.mp h
  obtain ⟨spec, hspec, rfl⟩ := Option.map_eq_some_iff.mp h
  have hall := all_entriesOf hv hentries
  obtain ⟨m, hm, hmentries⟩ := all_required hall hmetadata
  obtain ⟨w, hw, hwentries⟩ := all_required hall hspec
  have hmall := all_entriesOf hm hmentries
  refine ⟨?_, all_entriesOf hw hwentries⟩
  unfold headTexts
  simp only [List.forall_mem_cons]
  exact ⟨all_value hall hapi, all_value hall hkind, all_value hmall hname,
    all_value hmall hns, fun t ht => absurd ht List.not_mem_nil⟩

/-- The head is read back exactly when its texts come back. -/
theorem headOf_iff {lenient : Bool} {spec : List (Scalar × Node)} (hspec : spec ≠ [])
    {head : Head} :
    headOf lenient (.map (headEntries r apiVersion kind name ns spec)) = some head ↔
      textOf (textNode r apiVersion) = some head.apiVersion ∧
        textOf (textNode r kind) = some head.kind ∧ textOf (textNode r name) = some head.name ∧
          textOf (textNode r ns) = some head.ns ∧ head.spec = spec := by
  have hentries : entriesOf lenient (mapNode spec) = some spec := by
    rw [entriesOf_mapNode, if_pos (.inr hspec)]
  obtain ⟨apiVersion', kind', name', ns', spec'⟩ := head
  simp (disch := decide) only [headOf, headEntries, entriesOf_map, Option.bind_some,
    required_cons_self, required_cons_ne, hentries, Option.bind_eq_some_iff,
    Option.map_some, Option.some.injEq, Head.mk.injEq]
  constructor
  · rintro ⟨a, ha, b, hb, c, hc, d, hd, rfl, rfl, rfl, rfl, rfl⟩
    exact ⟨ha, hb, hc, hd, rfl⟩
  · rintro ⟨ha, hb, hc, hd, rfl⟩
    exact ⟨_, ha, _, hb, _, hc, _, hd, rfl, rfl, rfl, rfl, rfl⟩

theorem forall_headTexts_iff :
    (∀ t ∈ headTexts apiVersion kind name ns, t.Comes r) ↔
      textOf (textNode r apiVersion) = some apiVersion ∧ textOf (textNode r kind) = some kind ∧
        textOf (textNode r name) = some name ∧ textOf (textNode r ns) = some ns := by
  unfold headTexts
  simp only [List.forall_mem_cons, ← textOf_textNode_iff]
  simp

end Head

end KGuardian.WrittenManifests

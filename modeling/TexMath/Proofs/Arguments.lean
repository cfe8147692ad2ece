/-
Arguments: what an ordinary command line asks for.

# Items

A command line names a file or none, asks for strictness or not, and
gives a level any number of times, in one word or in two, in any order
(`Item`). What it asks for can be read off the items without the order in
which words act (`Item.options`): the one name is the file, the last level
counts, and without one the level is WARNING.

# Words

Each item is read as words of its own, whatever stands behind it
(`Word.ofArguments_items`), and the words act as the items ask
(`ofWords_items`). The induction is on the items, with the options that
the items in front have given; a name is taken only when none has been
given, which is why there may be one.
-/
import TexMath.CommandLine.Arguments

namespace TexMath.CommandLine

-- ================================================================== items

/-- One thing that a command line says. -/
inductive Item where
  | strict
  /-- A level, run on to its option or as a word of its own. -/
  | level (level : Log.Level) (attached : Bool)
  | file (name : String)

namespace Item

/-- An item as it is given. -/
def arguments : Item → List String
  | strict => ["--strict"]
  | level l true => ["--log-level=" ++ l.name]
  | level l false => ["--log-level", l.name]
  | file name => [name]

/-- The level that an item gives. -/
def level? : Item → Option Log.Level
  | level l _ => some l
  | _ => none

/-- The name that an item gives. -/
def file? : Item → Option String
  | file name => some name
  | _ => none

/-- The item asks for strictness. -/
def isStrict : Item → Bool
  | strict => true
  | _ => false

/-- What the items ask for. -/
def options (items : List Item) : Options where
  filename := (items.filterMap file?).head?
  level := some ((items.filterMap level?).getLast?.getD .warning)
  strict := items.any isStrict

/-- At most one file is named, and no name starts with a hyphen. -/
structure Plain (items : List Item) : Prop where
  one_file : (items.filterMap file?).length ≤ 1
  no_hyphen : ∀ name, file name ∈ items → name.toList.head? ≠ some '-'

theorem Plain.append {items : List Item} {item : Item} (h : Plain items)
    (hitem : item.file? = none) : Plain (items ++ [item]) := by
  refine ⟨?_, fun name hname => ?_⟩
  · rw [List.filterMap_append, List.filterMap_cons_none hitem, List.filterMap_nil, List.append_nil]
    exact h.one_file
  · rcases List.mem_append.1 hname with hmem | hmem
    · exact h.no_hyphen name hmem
    · rw [← List.mem_singleton.1 hmem] at hitem
      cases hitem

theorem options_append_level (items : List Item) (l : Log.Level) (attached : Bool) :
    options (items ++ [level l attached]) = { options items with level := some l } := by
  simp [options, level?, file?, isStrict]

theorem options_append_strict (items : List Item) :
    options (items ++ [strict]) = { options items with strict := true } := by
  simp [options, level?, file?, isStrict]

/-- What the items ask for where `o` has been asked for already. -/
def act (o : Options) (items : List Item) : Options where
  filename := o.filename.or (items.filterMap file?).head?
  level := (items.filterMap level?).getLast?.or o.level
  strict := o.strict || items.any isStrict

theorem act_default (items : List Item) : act .default items = options items := by
  unfold act options Options.default
  congr 1
  cases (items.filterMap level?).getLast? <;> rfl

variable {o : Options} {items : List Item}

theorem act_strict : act o (strict :: items) = act { o with strict := true } items := by
  unfold act
  rw [Bool.true_or, List.any_cons, isStrict, Bool.true_or, Bool.or_true]
  rfl

theorem act_level (l : Log.Level) (attached : Bool) :
    act o (level l attached :: items) = act { o with level := some l } items := by
  have hlevels : (level l attached :: items).filterMap level? = l :: items.filterMap level? := rfl
  unfold act
  rw [hlevels, List.getLast?_cons]
  cases (items.filterMap level?).getLast? <;> rfl

theorem act_file (name : String) (h : o.filename = none) :
    act o (file name :: items) = act { o with filename := some name } items := by
  unfold act
  rw [h]
  rfl

/-- The words that an item is read as. -/
def words : Item → List Word
  | strict => [.option .strict none]
  | level l true => [.option .logLevel (some l.name)]
  | level l false => [.option .logLevel none, .name l.name]
  | file name => [.name name]

end Item

-- ================================================================== words

namespace Word

theorem ofArgument_of_plain {name : String} (h : name.toList.head? ≠ some '-') :
    ofArgument name = .ok (.name name) := by
  unfold ofArgument
  cases hname : name.toList with
  | nil => rfl
  | cons c rest =>
    rw [hname, List.head?_cons] at h
    -- whatever is no name starts with a hyphen
    split
    all_goals first | rfl | simp_all

theorem ofArguments_cons {text : String} {rest : List String} {word : Word} {later : List Word}
    (htext : text ≠ "--") (hword : ofArgument text = .ok word)
    (hrest : ofArguments rest = .ok later) : ofArguments (text :: rest) = .ok (word :: later) := by
  rw [ofArguments, if_neg htext, hword, hrest]

/-- An item is read as its words, whatever stands behind it. -/
theorem ofArguments_item {item : Item} {rest : List String} {later : List Word}
    (hplain : ∀ name, item = .file name → name.toList.head? ≠ some '-')
    (hrest : ofArguments rest = .ok later) :
    ofArguments (item.arguments ++ rest) = .ok (item.words ++ later) := by
  cases item with
  | strict => exact ofArguments_cons (by decide) (by decide +kernel) hrest
  | level l attached =>
    cases attached with
    | true => cases l <;> exact ofArguments_cons (by decide) (by decide +kernel) hrest
    | false =>
      cases l <;> exact ofArguments_cons (by decide) (by decide +kernel)
        (ofArguments_cons (by decide) (by decide +kernel) hrest)
  | file name =>
    have hname := hplain name rfl
    have hseparator : name ≠ "--" := by
      rintro rfl
      exact hname rfl
    exact ofArguments_cons hseparator (ofArgument_of_plain hname) hrest

theorem ofArguments_items {items : List Item}
    (hplain : ∀ name, .file name ∈ items → name.toList.head? ≠ some '-') :
    ofArguments (items.flatMap Item.arguments) = .ok (items.flatMap Item.words) := by
  induction items with
  | nil => rfl
  | cons item items ih =>
    rw [List.flatMap_cons, List.flatMap_cons]
    apply ofArguments_item
    · rintro name rfl
      exact hplain name List.mem_cons_self
    · exact ih fun name hname => hplain name (List.mem_cons_of_mem item hname)

end Word

-- =============================================================== requests

namespace Request

variable {o : Options} {rest : List Word}

theorem withLevel_name (o : Options) (l : Log.Level) :
    withLevel o l.name = .ok { o with level := some l } := by
  cases l <;> rfl

theorem ofWords_name {name : String} (hfile : o.filename = none)
    (hrest : rest.head? ≠ some .separator) :
    ofWords o [] (.name name :: rest) = ofWords { o with filename := some name } [] rest := by
  cases rest with
  | nil => simp only [ofWords, hfile]
  | cons word rest =>
    cases word with
    | separator => exact absurd rfl hrest
    | _ => simp only [ofWords, hfile]

theorem ofWords_level (l : Log.Level) (attached : Bool) :
    ofWords o [] ((Item.level l attached).words ++ rest)
      = ofWords { o with level := some l } [] rest := by
  cases attached with
  | true => simp only [Item.words, List.singleton_append, ofWords, withLevel_name]
  | false => simp only [Item.words, List.cons_append, List.nil_append, ofWords, withLevel_name]

theorem head?_words_ne_separator (items : List Item) :
    (items.flatMap Item.words).head? ≠ some .separator := by
  cases items with
  | nil => exact nofun
  | cons item items =>
    cases item with
    | level l attached => cases attached <;> exact nofun
    | _ => exact nofun

/-- The words of items act as the items ask. -/
theorem ofWords_items {items : List Item}
    (hfiles : (o.filename.toList ++ items.filterMap Item.file?).length ≤ 1) :
    ofWords o [] (items.flatMap Item.words) = .ok (.run (Item.act o items)) := by
  induction items generalizing o with
  | nil =>
    unfold Item.act
    rw [List.filterMap_nil, List.head?_nil, Option.or_none, List.any_nil, Bool.or_false]
    rfl
  | cons item items ih =>
    rw [List.flatMap_cons]
    cases item with
    | strict =>
      rw [Item.act_strict]
      exact ih hfiles
    | level l attached =>
      rw [ofWords_level, Item.act_level]
      exact ih hfiles
    | file name =>
      have hnone : o.filename = none := by
        cases hname : o.filename with
        | none => rfl
        | some other =>
          rw [hname] at hfiles
          simp [Item.file?] at hfiles
      have hfirst : ofWords o [] ((Item.file name).words ++ items.flatMap Item.words)
          = ofWords { o with filename := some name } [] (items.flatMap Item.words) :=
        ofWords_name hnone (head?_words_ne_separator items)
      rw [hfirst, Item.act_file name hnone]
      rw [hnone] at hfiles
      exact ih hfiles

/-- An ordinary command line asks for a run with the options of its items. -/
theorem ofArguments_items {items : List Item} (h : Item.Plain items) :
    ofArguments (items.flatMap Item.arguments) = .ok (.run (Item.options items)) := by
  unfold ofArguments
  have hwords : ofWords .default [] (items.flatMap Item.words)
      = .ok (.run (Item.options items)) := by
    rw [ofWords_items (o := .default) h.one_file, Item.act_default]
  rw [Word.ofArguments_items h.no_hyphen]
  exact hwords

end Request

end TexMath.CommandLine

import Mathlib.Data.List.Perm.Basic
import Mathlib.Tactic.Lemma
import MakeDeps.Options.Parse
import MakeDeps.Proofs.Text.Cut

/-!
# Command lines that are written option by option

A command line can be put together from groups, each of which is about one option and is read
without regard to what comes before and after it: `readTokens_groups`. So the groups of a request
may come in any order, and what is read is what is asked for, with the links in the order of their
groups: `parse_groups`.
-/

namespace MakeDeps

namespace Opt

/-- The spelling before a value in the same argument. -/
def long (o : Opt) : String :=
  o.spellings.getLastD ""

/-- The spelling for an argument of its own. -/
def short (o : Opt) : String :=
  o.spellings.headD ""

/-- The long spelling of an option is one of it. -/
lemma ofSpelling?_long (o : Opt) : ofSpelling? o.long = some o := by
  cases o <;> decide

/-- The short spelling of an option is one of it. -/
lemma ofSpelling?_short (o : Opt) : ofSpelling? o.short = some o := by
  cases o <;> decide

/-- Spellings have no equals sign, and start with a dash that does not stand alone. -/
lemma spelling_of_ofSpelling? {s : String} {o : Opt} (h : ofSpelling? s = some o) :
    '=' ∉ s.toList ∧ s ≠ Token.separatorText ∧ ∃ c cs, s.toList = '-' :: c :: cs := by
  have hmem : (s, o) ∈ table := by
    obtain ⟨before, after, heq, -⟩ := List.lookup_eq_some_iff.1 h
    rw [heq]
    simp
  have hall : ∀ entry ∈ table, '=' ∉ entry.1.toList ∧ entry.1 ≠ Token.separatorText ∧
      entry.1.toList = '-' :: entry.1.toList.tail ∧ entry.1.toList.tail ≠ [] := by decide
  obtain ⟨hsign, hne, hdash, htail⟩ := hall _ hmem
  obtain ⟨c, cs, hcs⟩ := List.exists_cons_of_ne_nil htail
  exact ⟨hsign, hne, c, cs, by rw [hdash, hcs]⟩

end Opt

namespace Token

variable {s name value : String} {o : Opt} {token : Token} {words rest : List String}

/-- What is a spelling with its value joined is read as that. -/
lemma ofArgument_of_spelled {c : Char} {cs : List Char} (hs : s.toList = '-' :: c :: cs)
    (h : spelled? s = some token) : ofArgument s = .ok token := by
  unfold ofArgument
  split
  · rw [h]
  · next hno => exact absurd hs (hno c cs)

/-- The spelling of an option is read as the option. -/
lemma ofArgument_spelling (h : Opt.ofSpelling? s = some o) :
    ofArgument s = .ok (.option o s none) := by
  obtain ⟨-, -, c, cs, hs⟩ := Opt.spelling_of_ofSpelling? h
  exact ofArgument_of_spelled hs (by rw [spelled?, h])

/-- A value may follow a spelling after an equals sign, whatever it is. -/
lemma ofArgument_value (h : Opt.ofSpelling? name = some o) (value : String) :
    ofArgument (name ++ "=" ++ value) = .ok (.option o name (some value)) := by
  obtain ⟨hsign, -, c, cs, hname⟩ := Opt.spelling_of_ofSpelling? h
  have htext : (name ++ "=" ++ value).toList = name.toList ++ '=' :: value.toList := by simp
  have hsplit : splitValue (name ++ "=" ++ value) = (name, some value) := by
    rw [splitValue, htext, Text.cutFirst_append_cons hsign]
    simp
  have hno : Opt.ofSpelling? (name ++ "=" ++ value) = none := by
    cases hspelling : Opt.ofSpelling? (name ++ "=" ++ value) with
    | none => rfl
    | some o => exact absurd (by simp) (Opt.spelling_of_ofSpelling? hspelling).1
  have hdash : (name ++ "=" ++ value).toList = '-' :: c :: (cs ++ '=' :: value.toList) := by
    rw [htext, hname]
    rfl
  apply ofArgument_of_spelled hdash
  rw [spelled?, hno, hsplit]
  simp only [h, Option.map_some]

/-- An argument that does not start with a dash is a word. -/
lemma ofArgument_word (h : s.toList.head? ≠ some '-') : ofArgument s = .ok (.word s) := by
  unfold ofArgument
  split
  · next hs =>
    rw [hs] at h
    exact absurd rfl h
  · rfl

/-- What comes before the separator is read one by one. -/
lemma ofArguments_cons (hne : s ≠ separatorText) (h : ofArgument s = .ok token) :
    ofArguments (s :: rest) = (ofArguments rest).map (token :: ·) := by
  rw [ofArguments, if_neg hne, h]

/-- Words are read as words. -/
lemma ofArguments_words (h : ∀ s ∈ words, s.toList.head? ≠ some '-') :
    ofArguments (words ++ rest) = (ofArguments rest).map (words.map word ++ ·) := by
  induction words with
  | nil => cases hrest : ofArguments rest <;> simp [Except.map, hrest]
  | cons s words ih =>
    obtain ⟨hs, hwords⟩ := List.forall_mem_cons.1 h
    have hne : s ≠ separatorText := by
      rintro rfl
      exact hs (by decide)
    rw [List.cons_append, ofArguments_cons hne (ofArgument_word hs), ih hwords]
    cases ofArguments rest <;> rfl

end Token

namespace Options
open Token

/-- An option of a command line with the values that it is given there. -/
structure Group where
  option : Opt
  values : List String
  deriving DecidableEq

namespace Group

/-- A single value stands in the argument of the option, other values in arguments after it. -/
def arguments (g : Group) : List String :=
  match g.option.arity, g.values with
  | .one, [value] => [g.option.long ++ "=" ++ value]
  | _, values => g.option.short :: values

/-- What the arguments are classified as. -/
def tokens (g : Group) : List Token :=
  match g.option.arity, g.values with
  | .one, [value] => [.option g.option g.option.long (some value)]
  | _, values => .option g.option g.option.short none :: values.map word

/-- The option is given as many values as it takes. A single value is not the separator, and other
values do not start with a dash. -/
inductive IsPlain : Group → Prop where
  | flag {o : Opt} :
    o.arity = .none →
    IsPlain ⟨o, []⟩
  | single {o : Opt} {value : String} :
    o.arity = .one →
    value ≠ separatorText →
    IsPlain ⟨o, [value]⟩
  | several {o : Opt} {values : List String} :
    o.arity = .some →
    values ≠ [] →
    (∀ value ∈ values, value.toList.head? ≠ some '-') →
    IsPlain ⟨o, values⟩

variable {g : Group} {gs : List Group}

/-- The arguments of a group are classified whatever follows them. -/
lemma IsPlain.ofArguments (h : g.IsPlain) (rest : List String) :
    ofArguments (g.arguments ++ rest) = (ofArguments rest).map (g.tokens ++ ·) := by
  cases h with
  | @flag o harity =>
    have hshort := o.ofSpelling?_short
    have hne := (Opt.spelling_of_ofSpelling? hshort).2.1
    simp only [arguments, tokens, harity]
    exact ofArguments_cons hne (ofArgument_spelling hshort)
  | @single o value harity _ =>
    have hlong := o.ofSpelling?_long
    have hne : o.long ++ "=" ++ value ≠ separatorText := by
      intro heq
      have hsign : '=' ∈ (o.long ++ "=" ++ value).toList := by simp
      rw [heq] at hsign
      exact absurd hsign (by decide)
    simp only [arguments, tokens, harity]
    exact ofArguments_cons hne (ofArgument_value hlong value)
  | @several o values harity _ hwords =>
    have hshort := o.ofSpelling?_short
    have hne := (Opt.spelling_of_ofSpelling? hshort).2.1
    simp only [arguments, tokens, harity, List.cons_append]
    rw [ofArguments_cons hne (ofArgument_spelling hshort), ofArguments_words hwords]
    cases Token.ofArguments rest <;> rfl

/-- Groups are read as their tokens, one after the other. -/
lemma ofArguments_flatMap (h : ∀ g ∈ gs, g.IsPlain) :
    ofArguments (gs.flatMap arguments) = .ok (gs.flatMap tokens) := by
  induction gs with
  | nil => rfl
  | cons g gs ih =>
    obtain ⟨hg, hgs⟩ := List.forall_mem_cons.1 h
    rw [List.flatMap_cons, hg.ofArguments, ih hgs]
    rfl

/-- The tokens of a group start with an option, so no words are added to those before them. -/
lemma leadingWords_tokens (g : Group) (rest : List Token) :
    leadingWords (g.tokens ++ rest) = [] := by
  unfold tokens
  split <;> rfl

/-- The tokens of groups begin with no word. -/
lemma leadingWords_flatMap (gs : List Group) : leadingWords (gs.flatMap tokens) = [] := by
  cases gs with
  | nil => rfl
  | cons g gs => exact g.leadingWords_tokens _

end Group

variable {d d' : Draft} {g : Group} {gs : List Group} {rest : List Token} {words : List String}

/-- Words before tokens that begin with none are the leading ones. -/
lemma leadingWords_append (h : leadingWords rest = []) :
    leadingWords (words.map word ++ rest) = words := by
  induction words with
  | nil => exact h
  | cons s words ih => exact congrArg (s :: ·) ih

/-- An option that takes one value takes the joined one. -/
lemma bundleOf_value {o : Opt} (h : o.arity = .one) (spelling value : String) :
    bundleOf o spelling (some value) = .ok ⟨[], o, some value⟩ := by
  have harity : ¬ o.arity = .none := by
    rw [h]
    decide
  rw [bundleOf]
  unfold unbundle
  split
  · next hnil => rw [if_neg harity, String.toList_eq_nil_iff.1 hnil]
  · next c cs hcons => rw [if_neg harity, ← hcons, String.ofList_toList]

/-- A group is read by what its option does with the values, before the rest is read. -/
lemma readTokens_group (h : g.IsPlain) (hrest : leadingWords rest = [])
    (htake : d.take g.option g.values = .ok d') :
    readTokens d (g.tokens ++ rest) = readTokens d' rest := by
  cases h with
  | @flag o harity =>
    simp only [Group.tokens, harity, List.map_nil, List.cons_append, List.nil_append]
    rw [readTokens, bundleOf]
    simp only [valuesOf, harity, Draft.takeFlags, htake, consumed]
    rfl
  | @single o value harity _ =>
    simp only [Group.tokens, harity, List.cons_append, List.nil_append]
    rw [readTokens, bundleOf_value harity]
    simp only [valuesOf, Draft.takeFlags, htake, consumed]
    rfl
  | @several o values harity hne _ =>
    have hwords : leadingWords (values.map word ++ rest) = values := leadingWords_append hrest
    have hvalues : valuesOf ⟨[], o, none⟩ (values.map word ++ rest) = .ok values := by
      obtain ⟨value, more, rfl⟩ := List.exists_cons_of_ne_nil hne
      simp only [valuesOf, harity, hwords]
    have hdrop : (values.map word ++ rest).drop values.length = rest :=
      List.drop_left' (List.length_map word)
    simp only [Group.tokens, harity, List.cons_append]
    rw [readTokens, bundleOf]
    simp only [hvalues, Draft.takeFlags, htake, consumed]
    exact congrArg (readTokens d') hdrop

/-- The values that groups give to an option, group by group. -/
def given (o : Opt) (gs : List Group) : List (List String) :=
  (gs.filter (·.option = o)).map Group.values

/-- What is read after groups: the last group of an option counts, and links are collected. -/
def Draft.after (d : Draft) (gs : List Group) : Draft where
  extension := ((given .extension gs).getLast?.map valueOf).or d.extension
  binary := ((given .binary gs).getLast?.map valueOf).or d.binary
  compiler := ((given .compiler gs).getLast?.map valueOf).or d.compiler
  std := ((given .std gs).getLast?.map valueOf).or d.std
  opt := ((given .opt gs).getLast?.map valueOf).getD d.opt
  tests := ((given .tests gs).getLast?.map withoutSeparator).getD d.tests
  entry := ((given .entry gs).getLast?.map valueOf).or d.entry
  links := d.links ++ (given .link gs).map valueOf
  directory := ((given .directory gs).getLast?.map valueOf).getD d.directory
  output := ((given .output gs).getLast?.map valueOf).getD d.output
  verbose := d.verbose || !(given .verbose gs).isEmpty
  debug := d.debug || !(given .debug gs).isEmpty
  extras := d.extras

/-- What has been given for an option is given by one group after the other. -/
lemma given_cons (o : Opt) (g : Group) (gs : List Group) : given o (g :: gs) =
    if g.option = o then g.values :: given o gs else given o gs := by
  unfold given
  rw [List.filter_cons]
  by_cases h : g.option = o
  · simp [h]
  · simp [h]

/-- Without groups a draft stays as it is. -/
lemma Draft.after_nil (d : Draft) : d.after [] = d := by
  simp [after, given]

/-- One group is taken after the other. -/
lemma Draft.after_cons (h : d.take g.option g.values = .ok d') :
    d.after (g :: gs) = d'.after gs := by
  obtain ⟨o, values⟩ := g
  cases o <;> cases h <;> simp [after, given_cons, List.getLast?_cons]

/-- A draft takes the values of every option but two. -/
lemma Draft.exists_take {o : Opt} (hhelp : o ≠ .help) (hversion : o ≠ .version) (d : Draft)
    (values : List String) : ∃ d', d.take o values = .ok d' := by
  cases o with
  | help => exact absurd rfl hhelp
  | version => exact absurd rfl hversion
  | _ => exact ⟨_, rfl⟩

/-- Groups are read one after the other. -/
lemma readTokens_groups (hplain : ∀ g ∈ gs, g.IsPlain)
    (hrun : ∀ g ∈ gs, g.option ≠ .help ∧ g.option ≠ .version) :
    readTokens d (gs.flatMap Group.tokens) = .ok (d.after gs) := by
  induction gs generalizing d with
  | nil => rw [List.flatMap_nil, readTokens, Draft.after_nil]
  | cons g gs ih =>
    obtain ⟨hg, hgs⟩ := List.forall_mem_cons.1 hplain
    obtain ⟨⟨hhelp, hversion⟩, hrest⟩ := List.forall_mem_cons.1 hrun
    obtain ⟨d', htake⟩ := Draft.exists_take hhelp hversion d g.values
    rw [List.flatMap_cons, readTokens_group hg (Group.leadingWords_flatMap gs) htake,
      ih hgs hrest, Draft.after_cons htake]

/-- What is asked for on a command line. Options that need not be given may be missing. -/
structure Request where
  extension : String
  binary : String
  compiler : Option String
  std : Option String
  opt : Option String
  tests : Option (List String)
  entry : Option String
  links : List String
  directory : Option String
  output : Option String
  verbose : Bool
  debug : Bool

namespace Request

/-- The values that an option is to be given, once for each group. -/
def values (r : Request) : Opt → List (List String)
  | .help => []
  | .version => []
  | .extension => [[r.extension]]
  | .binary => [[r.binary]]
  | .compiler => r.compiler.toList.map ([·])
  | .std => r.std.toList.map ([·])
  | .opt => r.opt.toList.map ([·])
  | .tests => r.tests.toList
  | .entry => r.entry.toList.map ([·])
  | .link => r.links.map ([·])
  | .directory => r.directory.toList.map ([·])
  | .output => r.output.toList.map ([·])
  | .verbose => if r.verbose then [[]] else []
  | .debug => if r.debug then [[]] else []

/-- The groups that are needed to ask for it: one for each option that is given, and for each
link. -/
def groups (r : Request) : List Group :=
  Opt.all.flatMap fun o => (r.values o).map (Group.mk o)

/-- The arguments that are asked for, with what holds for options that are missing. -/
def arguments (r : Request) : Arguments where
  extension := .text r.extension
  binary := .text r.binary
  compiler := r.compiler.map .text
  std := r.std.map .text
  opt := .text (r.opt.getD "O0")
  tests := r.tests.getD ["tests"]
  entry := r.entry.map .text
  links := r.links.map .text
  directory := .text (r.directory.getD ".")
  output := .text (r.output.getD "Makefile")
  verbose := r.verbose
  debug := r.debug

variable {r : Request} {o : Opt}

/-- The groups of a request are the values that it has for options. -/
lemma mem_groups_iff : g ∈ r.groups ↔ g.values ∈ r.values g.option := by
  have hall : g.option ∈ Opt.all := by cases g.option <;> decide
  rw [groups, List.mem_flatMap]
  constructor
  · rintro ⟨o, -, hmem⟩
    obtain ⟨values, hvalues, rfl⟩ := List.mem_map.1 hmem
    exact hvalues
  · exact fun hvalues => ⟨g.option, hall, List.mem_map.2 ⟨g.values, hvalues, rfl⟩⟩

/-- The groups of a request give its values. -/
lemma given_groups (r : Request) (o : Opt) : given o r.groups = r.values o := by
  have hfilter : ∀ o', ((r.values o').map (Group.mk o')).filter (·.option = o) =
      if o' = o then (r.values o').map (Group.mk o') else [] := by
    intro o'
    split
    · next h => exact List.filter_eq_self.2 (by simp [h])
    · next h => exact List.filter_eq_nil_iff.2 (by simp [h])
  rw [given, groups, List.filter_flatMap]
  simp only [hfilter]
  cases o <;> simp [Opt.all, Function.comp_def]

/-- Apart from links, an option is given at most once. -/
lemma length_values_le (r : Request) (h : o ≠ .link) : (r.values o).length ≤ 1 := by
  have hoption : ∀ {α : Type} (x : Option α), x.toList.length ≤ 1 := by
    intro α x
    cases x <;> simp
  have hflag : ∀ b : Bool, (if b then [([] : List String)] else []).length ≤ 1 := by decide
  cases o with
  | link => exact absurd rfl h
  | extension | binary | help | version => simp [values]
  | compiler | std | opt | tests | entry | directory | output => simp [values, hoption]
  | verbose | debug => exact hflag _

/-- The order of the groups makes no difference to what they give to an option. -/
lemma given_eq (hgs : gs.Perm r.groups) (h : o ≠ .link) : given o gs = r.values o := by
  have hperm : (given o gs).Perm (r.values o) := by
    rw [← given_groups]
    exact (hgs.filter _).map _
  have hlength := r.length_values_le h
  cases hvalues : r.values o with
  | nil =>
    rw [hvalues] at hperm
    exact hperm.eq_nil
  | cons values more =>
    rw [hvalues] at hperm hlength
    obtain rfl : more = [] := List.eq_nil_of_length_eq_zero (by simpa using hlength)
    exact List.perm_singleton.1 hperm

end Request

/-- One value that is no separator is a text. -/
lemma valueOf_single {value : String} (h : value ≠ separatorText) :
    valueOf [value] = .text value := by
  have herase : [value].erase separatorText = [value] :=
    List.erase_of_not_mem (by simpa using h.symm)
  rw [valueOf, withoutSeparator, herase]

namespace Group.IsPlain

/-- A plain group of an option with one value has that value. -/
lemma exists_value {o : Opt} {values : List String} (h : (⟨o, values⟩ : Group).IsPlain)
    (harity : o.arity = .one) : ∃ value, values = [value] ∧ valueOf values = .text value := by
  cases h with
  | flag hnone =>
    rw [harity] at hnone
    cases hnone
  | single _ hne => exact ⟨_, rfl, valueOf_single hne⟩
  | several hsome _ _ =>
    rw [harity] at hsome
    cases hsome

/-- There is no separator among the values of a plain group of tests. -/
lemma withoutSeparator_tests {values : List String} (h : (⟨.tests, values⟩ : Group).IsPlain) :
    withoutSeparator values = values := by
  cases h with
  | flag hnone => cases hnone
  | single hone => cases hone
  | several _ _ hwords =>
    refine List.erase_of_not_mem fun hmem => ?_
    exact hwords _ hmem (by decide)

end Group.IsPlain

/-- The links that groups ask for, in their order. -/
def linksOf (gs : List Group) : List String :=
  (given .link gs).flatten

/-- The values of plain groups of links are texts. -/
lemma map_valueOf_links (h : ∀ g ∈ gs, g.IsPlain) :
    (given .link gs).map valueOf = (linksOf gs).map .text := by
  induction gs with
  | nil => rfl
  | cons g gs ih =>
    obtain ⟨hg, hgs⟩ := List.forall_mem_cons.1 h
    rw [linksOf, given_cons]
    split
    · next hlink =>
      obtain ⟨o, values⟩ := g
      obtain rfl : o = .link := hlink
      obtain ⟨value, rfl, hvalue⟩ := hg.exists_value rfl
      rw [List.map_cons, hvalue, ih hgs]
      rfl
    · exact ih hgs

namespace Request

variable {r : Request}

/-- The last value of an option is the one of the request. -/
lemma map_valueOf_values (hplain : ∀ g ∈ r.groups, g.IsPlain) {o : Opt} (harity : o.arity = .one)
    {x : Option String} (hx : r.values o = x.toList.map ([·])) :
    (r.values o).getLast?.map valueOf = x.map .text := by
  cases x with
  | none =>
    rw [hx]
    rfl
  | some value =>
    have hmem : (⟨o, [value]⟩ : Group) ∈ r.groups := mem_groups_iff.2 (by simp [hx])
    obtain ⟨value', heq, hvalue⟩ := (hplain _ hmem).exists_value harity
    cases heq
    rw [hx]
    exact congrArg some hvalue

/-- The last list of tests is the one of the request. -/
lemma map_withoutSeparator_tests (hplain : ∀ g ∈ r.groups, g.IsPlain) :
    (r.values .tests).getLast?.map withoutSeparator = r.tests := by
  cases htests : r.tests with
  | none => simp [values, htests]
  | some identifiers =>
    have hmem : (⟨.tests, identifiers⟩ : Group) ∈ r.groups :=
      mem_groups_iff.2 (by simp [values, htests])
    simp [values, htests, (hplain _ hmem).withoutSeparator_tests]

/-- What has been read after all groups of a request. -/
lemma after_start (hgs : gs.Perm r.groups) (hplain : ∀ g ∈ r.groups, g.IsPlain) :
    Draft.start.after gs = { r.arguments with
      extension := some (.text r.extension)
      binary := some (.text r.binary)
      links := (given .link gs).map valueOf
      extras := [] } := by
  have hgiven : ∀ o, o ≠ .link → given o gs = r.values o := fun o => given_eq hgs
  have hextension := map_valueOf_values hplain (o := .extension) rfl (x := some r.extension) rfl
  have hbinary := map_valueOf_values hplain (o := .binary) rfl (x := some r.binary) rfl
  have hcompiler := map_valueOf_values hplain (o := .compiler) rfl (x := r.compiler) rfl
  have hstd := map_valueOf_values hplain (o := .std) rfl (x := r.std) rfl
  have hopt := map_valueOf_values hplain (o := .opt) rfl (x := r.opt) rfl
  have hentry := map_valueOf_values hplain (o := .entry) rfl (x := r.entry) rfl
  have hdirectory := map_valueOf_values hplain (o := .directory) rfl (x := r.directory) rfl
  have houtput := map_valueOf_values hplain (o := .output) rfl (x := r.output) rfl
  have hverbose : (!(r.values .verbose).isEmpty) = r.verbose := by
    cases h : r.verbose <;> simp [values, h]
  have hdebug : (!(r.values .debug).isEmpty) = r.debug := by
    cases h : r.debug <;> simp [values, h]
  simp only [Draft.after, ne_eq, reduceCtorEq, not_false_eq_true, hgiven, hextension, hbinary,
    hcompiler, hstd, hopt, hentry, hdirectory, houtput, hverbose, hdebug,
    map_withoutSeparator_tests hplain]
  simp [Draft.start, arguments, Option.getD_map, Config.defaultOptimization, Config.defaultTests]

end Request

/-- A command line of groups in any order is read as what the groups ask for: each option that is
given has its values, each option that is not has its usual ones, and the links are in the order of
their groups. -/
theorem parse_groups {r : Request} {gs : List Group} (hgs : gs.Perm r.groups)
    (hplain : ∀ g ∈ r.groups, g.IsPlain) :
    parse (gs.flatMap Group.arguments) =
      .ok { r.arguments with links := (linksOf gs).map .text } := by
  have hplain' : ∀ g ∈ gs, g.IsPlain := fun g hg => hplain g (hgs.mem_iff.1 hg)
  have hrun : ∀ g ∈ gs, g.option ≠ .help ∧ g.option ≠ .version := by
    intro g hg
    have hvalues := Request.mem_groups_iff.1 (hgs.mem_iff.1 hg)
    constructor
    · intro heq
      rw [heq] at hvalues
      cases hvalues
    · intro heq
      rw [heq] at hvalues
      cases hvalues
  have hread := readTokens_groups (d := .start) hplain' hrun
  rw [Request.after_start hgs hplain, map_valueOf_links hplain'] at hread
  rw [parse, Group.ofArguments_flatMap hplain']
  simp only [hread]
  rfl

/-- A request whose values look like other things on a command line. -/
def oddRequest : Request where
  extension := ""
  binary := "--help"
  compiler := some "--opt=3"
  std := none
  opt := some "-O"
  tests := some ["", "a b"]
  entry := none
  links := ["a=b", "-t"]
  directory := none
  output := some "x = y"
  verbose := true
  debug := true

/-- Its groups, with those of the links in the other order. -/
def oddGroups : List Group :=
  [⟨.debug, []⟩, ⟨.link, ["-t"]⟩, ⟨.tests, ["", "a b"]⟩, ⟨.output, ["x = y"]⟩, ⟨.verbose, []⟩,
    ⟨.compiler, ["--opt=3"]⟩, ⟨.link, ["a=b"]⟩, ⟨.binary, ["--help"]⟩, ⟨.opt, ["-O"]⟩,
    ⟨.extension, [""]⟩]

/-- A request with odd values is read back from its groups in another order. -/
theorem parse_oddGroups :
    oddGroups.Perm oddRequest.groups ∧ (∀ g ∈ oddRequest.groups, g.IsPlain) ∧
    oddGroups.flatMap Group.arguments = ["--debug", "--link=-t", "-t", "", "a b", "--output=x = y",
      "-v", "--compiler=--opt=3", "--link=a=b", "--binary=--help", "--opt=-O", "--extension="] ∧
    parse (oddGroups.flatMap Group.arguments) = .ok {
      extension := .text "", binary := .text "--help", compiler := some (.text "--opt=3")
      std := none, opt := .text "-O", tests := ["", "a b"], entry := none
      links := [.text "-t", .text "a=b"], directory := .text ".", output := .text "x = y"
      verbose := true, debug := true } := by
  have hperm : oddGroups.Perm oddRequest.groups := by decide
  have hplain : ∀ g ∈ oddRequest.groups, g.IsPlain := by
    show ∀ g ∈ [Group.mk .extension [""], ⟨.binary, ["--help"]⟩, ⟨.compiler, ["--opt=3"]⟩,
      ⟨.opt, ["-O"]⟩, ⟨.tests, ["", "a b"]⟩, ⟨.link, ["a=b"]⟩, ⟨.link, ["-t"]⟩,
      ⟨.output, ["x = y"]⟩, ⟨.verbose, []⟩, ⟨.debug, []⟩], g.IsPlain
    simp only [List.forall_mem_cons]
    refine ⟨?_, ?_, ?_, ?_, .several rfl (by decide) (by decide), ?_, ?_, ?_, .flag rfl, .flag rfl,
      by simp⟩
    all_goals exact .single rfl (by decide)
  exact ⟨hperm, hplain, by decide +kernel, parse_groups hperm hplain⟩

end Options

end MakeDeps

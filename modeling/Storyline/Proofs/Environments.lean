import Storyline.Proofs.Rules
import Storyline.Proofs.Variant
import Storyline.Settings

/-!
# Environments that spell settings

Settings are read from texts, and these can be written in several ways: numbers with a plus or with
zeros at their head, the list of origins with blanks and empty pieces in it. All of them are read as
the same settings, and what is no such text is refused under its name.

* `Text.pieces_eq_splitOn`: the pieces of a text are those of `List.splitOn`;
* `Settings.IsListable`, `Settings.Lists`: a list between commas, with `Settings.listed_eq_iff` for
  the entries that are read from it;
* `Settings.Spells`, `Settings.ofEnvironment_eq_ok`: the settings that an environment spells;
* `Settings.FirstBad`, `Settings.failsFirst_ofEnvironment`: the first entry that is refused;
* **`settings_readBack`**: settings are read back however they are spelled, and otherwise the first
  bad entry is named.
-/

namespace Storyline

open Text

/-! ## Lists -/

theorem Text.pieces_eq_splitOn (sep : Char) (cs : List Char) : pieces sep cs = cs.splitOn sep := by
  induction cs with
  | nil => rfl
  | cons c cs ih =>
    obtain ⟨p, ps, hcut⟩ := List.exists_cons_of_ne_nil (List.splitOn_ne_nil sep cs)
    rw [List.splitOn_cons_eq_if_modifyHead, pieces, ih, hcut]
    by_cases hc : c = sep <;> simp [hc]

theorem VariantOrder.ofName_eq_ok {text : String} {order : VariantOrder} :
    VariantOrder.ofName text = .ok order ↔ text = order.name := by
  constructor
  · intro h
    unfold VariantOrder.ofName at h
    split_ifs at h with hnewest hhighest
    · cases h
      exact hnewest
    · cases h
      exact hhighest
  · rintro rfl
    exact VariantOrder.ofName_name order

namespace Settings

section Lists

variable {text : String} {entries : List String}

/-- What can stand in a list: a text with something in it, without commas and without blanks at its
ends. -/
structure IsListable (entry : String) : Prop where
  nonempty : entry ≠ ""
  no_comma : ',' ∉ entry.toList
  head : ∀ c, entry.toList.head? = some c → isBlank c = false
  last : ∀ c, entry.toList.getLast? = some c → isBlank c = false

/-- The text is a list of entries with commas between them. There may be blanks around each entry,
and there may be further pieces without an entry. -/
inductive Lists : (text : String) → (entries : List String) → Prop
  | blank {text : String} (h : ∀ c ∈ text.toList, isBlank c = true) : Lists text []
  | entry {left entry right : String} (h : ∀ c ∈ (left ++ right).toList, isBlank c = true) :
      Lists (left ++ entry ++ right) [entry]
  | comma {text text' : String} {entries entries' : List String} (h : Lists text entries)
      (h' : Lists text' entries') : Lists (text ++ "," ++ text') (entries ++ entries')

theorem comma_not_mem_blanks {cs : List Char} (h : ∀ c ∈ cs, isBlank c = true) : ',' ∉ cs :=
  fun hcomma => absurd (h ',' hcomma) (by decide)

theorem listed_comma (text text' : String) :
    listed (text ++ "," ++ text') = listed text ++ listed text' := by
  have htext : (text ++ "," ++ text').toList = text.toList ++ ',' :: text'.toList := by simp
  unfold listed
  rw [htext, pieces_eq_splitOn, pieces_eq_splitOn, pieces_eq_splitOn, List.splitOn_append_cons_self,
    List.map_append, List.filter_append]

theorem listed_piece (h : ',' ∉ text.toList) : listed text =
    if trim text.toList = [] then [] else [String.ofList (trim text.toList)] := by
  have hpiece : pieces ',' text.toList = [text.toList] := by
    rw [pieces_eq_splitOn, List.splitOn_eq_singleton h]
  rw [listed, hpiece, List.map_singleton, List.filter_singleton]
  by_cases hnil : trim text.toList = []
  · rw [hnil]
    rfl
  · have hempty : (String.ofList (trim text.toList)).isEmpty = false := by simpa using hnil
    rw [if_neg hnil, hempty]
    rfl

/-- Every text is a list of what is read from it. -/
theorem lists_listed (text : String) :
    Lists text (listed text) ∧ ∀ entry ∈ listed text, IsListable entry := by
  -- on the length, since a text is cut at any of its commas
  induction hn : text.toList.length using Nat.strongRecOn generalizing text with
  | ind n ih =>
    by_cases hcomma : ',' ∈ text.toList
    · obtain ⟨ds, es, hcut⟩ := List.append_of_mem hcomma
      have htext : text = String.ofList ds ++ "," ++ String.ofList es := by
        apply String.toList_injective
        simpa using hcut
      rw [hcut, List.length_append, List.length_cons] at hn
      obtain ⟨hds, hds'⟩ := ih ds.length (by omega) (String.ofList ds) (by simp)
      obtain ⟨hes, hes'⟩ := ih es.length (by omega) (String.ofList es) (by simp)
      rw [htext, listed_comma]
      exact ⟨.comma hds hes, List.forall_mem_append.mpr ⟨hds', hes'⟩⟩
    · obtain ⟨left, right, hblanks, hblank⟩ := eq_trim text.toList
      rw [listed_piece hcomma]
      split_ifs with hnil
      · rw [hnil, List.append_nil] at hblanks
        exact ⟨.blank (hblanks ▸ hblank), nofun⟩
      · have htext : text =
            String.ofList left ++ String.ofList (trim text.toList) ++ String.ofList right := by
          apply String.toList_injective
          simpa using hblanks
        obtain ⟨hhead, hlast⟩ := trim_ends text.toList
        refine ⟨?_, fun entry hentry => ?_⟩
        · have hlists :
            Lists (String.ofList left ++ String.ofList (trim text.toList) ++ String.ofList right)
              [String.ofList (trim text.toList)] := .entry (by simpa using hblank)
          rwa [← htext] at hlists
        · obtain rfl := List.mem_singleton.mp hentry
          refine ⟨?_, ?_, ?_, ?_⟩
          · simpa using hnil
          · rw [String.toList_ofList]
            intro hmem
            rw [hblanks] at hcomma
            exact hcomma (List.mem_append_left _ (List.mem_append_right _ hmem))
          · simpa using hhead
          · simpa using hlast

theorem Lists.listed_eq (h : Lists text entries) (hentries : ∀ entry ∈ entries, IsListable entry) :
    listed text = entries := by
  induction h with
  | @blank text h =>
    have htrim : trim ([] ++ [] ++ text.toList) = [] := trim_blanks h nofun nofun
    rw [List.nil_append, List.nil_append] at htrim
    rw [listed_piece (comma_not_mem_blanks h), if_pos htrim]
  | @entry left entry right h =>
    have hentry : IsListable entry := hentries entry List.mem_cons_self
    have hblank : ∀ c ∈ left.toList ++ right.toList, isBlank c = true := by simpa using h
    have htext : (left ++ entry ++ right).toList = left.toList ++ entry.toList ++ right.toList := by
      simp
    have htrim : trim (left ++ entry ++ right).toList = entry.toList :=
      htext ▸ trim_blanks hblank hentry.head hentry.last
    have hcomma : ',' ∉ (left ++ entry ++ right).toList := by
      have hblanks : ',' ∉ left.toList ++ right.toList := comma_not_mem_blanks hblank
      rw [htext]
      simp only [List.mem_append, not_or] at hblanks ⊢
      exact ⟨⟨hblanks.1, hentry.no_comma⟩, hblanks.2⟩
    rw [listed_piece hcomma, htrim, if_neg (mt String.toList_eq_nil_iff.mp hentry.nonempty),
      String.ofList_toList]
  | @comma text text' entries entries' h h' ih ih' =>
    obtain ⟨hleft, hright⟩ := List.forall_mem_append.mp hentries
    rw [listed_comma, ih hleft, ih' hright]

/-- **The entries of a list** are read from every text that lists them, and from no other. -/
theorem listed_eq_iff :
    listed text = entries ↔ (∀ entry ∈ entries, IsListable entry) ∧ Lists text entries := by
  constructor
  · rintro rfl
    exact ⟨(lists_listed text).2, (lists_listed text).1⟩
  · exact fun ⟨hentries, h⟩ => h.listed_eq hentries

example : listed " a, ,b c\u3000," = ["a", "b c"] := by decide

end Lists

/-! ## What is spelled -/

section Spelled

variable {env : Environment} {s : Settings} {name type default : String} {size n : Nat}

/-- Settings that can be spelled: each origin can stand in a list. -/
def Proper (s : Settings) : Prop := ∀ origin ∈ s.origins, IsListable origin

/-- The texts of an environment spell the settings, where what is not set stands for its default. -/
structure Spells (env : Environment) (s : Settings) : Prop where
  host : (env "HOST").getD "0.0.0.0" = s.host
  port : Numeral.Spells ((env "PORT").getD "3000").toList s.port.toNat
  origins : Lists ((env "CORS_ORIGINS").getD "http://localhost:5173") s.origins
  requestTimeout : Numeral.Spells ((env "REQUEST_TIMEOUT_SECS").getD "30").toList
    s.requestTimeout.toNat
  shutdownTimeout : Numeral.Spells ((env "SHUTDOWN_TIMEOUT_SECS").getD "30").toList
    s.shutdownTimeout.toNat
  retries : Numeral.Spells ((env "SLUG_MAX_RETRIES").getD "1").toList s.slugPolicy.retries.toNat
  order : (env "SLUG_ITERATION_ORDER").getD "latest_created" = s.slugPolicy.order.name

theorem number_eq_ok (hsize : 0 < size) : number env name type size default = .ok n ↔
    Numeral.Spells ((env name).getD default).toList n ∧ n < size := by
  rw [← Nat.le_sub_one_iff_lt hsize, ← Numeral.read_eq_ok, number]
  cases Numeral.read (size - 1) ((env name).getD default).toList <;> simp

theorem order_eq_ok {o : VariantOrder} : order env = .ok o ↔
    (env "SLUG_ITERATION_ORDER").getD "latest_created" = o.name := by
  rw [← VariantOrder.ofName_eq_ok, order]
  show _ ↔ VariantOrder.ofName ((env "SLUG_ITERATION_ORDER").getD VariantOrder.newest.name) = .ok o
  cases VariantOrder.ofName ((env "SLUG_ITERATION_ORDER").getD VariantOrder.newest.name) <;> simp

/-- **The settings of an environment** are those that it spells. -/
theorem ofEnvironment_eq_ok : ofEnvironment env = .ok s ↔ s.Proper ∧ Spells env s := by
  constructor
  · intro h
    obtain ⟨port, hport, h⟩ := bind_eq_ok.mp h
    obtain ⟨request, hrequest, h⟩ := bind_eq_ok.mp h
    obtain ⟨shutdown, hshutdown, h⟩ := bind_eq_ok.mp h
    obtain ⟨retries, hretries, h⟩ := bind_eq_ok.mp h
    obtain ⟨order, horder, h⟩ := bind_eq_ok.mp h
    cases h
    obtain ⟨hport, hport'⟩ := (number_eq_ok (by decide)).mp hport
    obtain ⟨hrequest, hrequest'⟩ := (number_eq_ok (by decide)).mp hrequest
    obtain ⟨hshutdown, hshutdown'⟩ := (number_eq_ok (by decide)).mp hshutdown
    obtain ⟨hretries, hretries'⟩ := (number_eq_ok (by decide)).mp hretries
    obtain ⟨hlists, hlistable⟩ := lists_listed ((env "CORS_ORIGINS").getD "http://localhost:5173")
    refine ⟨hlistable, rfl, ?_, hlists, ?_, ?_, ?_, order_eq_ok.mp horder⟩
    · rwa [UInt16.toNat_ofNat_of_lt' hport']
    · rwa [UInt64.toNat_ofNat_of_lt' hrequest']
    · rwa [UInt64.toNat_ofNat_of_lt' hshutdown']
    · rwa [UInt32.toNat_ofNat_of_lt' hretries']
  · rintro ⟨hproper, h⟩
    refine bind_eq_ok.mpr ⟨_, (number_eq_ok (by decide)).mpr ⟨h.port, s.port.toNat_lt⟩, ?_⟩
    refine bind_eq_ok.mpr ⟨_, (number_eq_ok (by decide)).mpr ⟨h.requestTimeout,
      s.requestTimeout.toNat_lt⟩, ?_⟩
    refine bind_eq_ok.mpr
      ⟨_, (number_eq_ok (by decide)).mpr ⟨h.shutdownTimeout, s.shutdownTimeout.toNat_lt⟩, ?_⟩
    refine bind_eq_ok.mpr ⟨_, (number_eq_ok (by decide)).mpr ⟨h.retries,
      s.slugPolicy.retries.toNat_lt⟩, ?_⟩
    refine bind_eq_ok.mpr ⟨_, order_eq_ok.mpr h.order, ?_⟩
    rw [h.host, h.origins.listed_eq hproper, UInt16.ofNat_toNat, UInt64.ofNat_toNat,
      UInt64.ofNat_toNat, UInt32.ofNat_toNat]
    rfl

/-- The settings written out: plain numerals, the origins with a comma between each and the next. -/
def written (s : Settings) : Environment
  | "HOST" => some s.host
  | "PORT" => some (String.ofList (Numeral.write s.port.toNat))
  | "CORS_ORIGINS" => some (",".intercalate s.origins)
  | "REQUEST_TIMEOUT_SECS" => some (String.ofList (Numeral.write s.requestTimeout.toNat))
  | "SHUTDOWN_TIMEOUT_SECS" => some (String.ofList (Numeral.write s.shutdownTimeout.toNat))
  | "SLUG_MAX_RETRIES" => some (String.ofList (Numeral.write s.slugPolicy.retries.toNat))
  | "SLUG_ITERATION_ORDER" => some s.slugPolicy.order.name
  | _ => none

theorem lists_intercalate (entries : List String) : Lists (",".intercalate entries) entries := by
  induction entries with
  | nil => exact .blank (by simp)
  | cons entry entries ih =>
    have hentry : Lists ("" ++ entry ++ "") [entry] := .entry (by simp)
    rw [String.empty_append, String.append_empty] at hentry
    cases entries with
    | nil =>
      rw [String.intercalate_singleton]
      exact hentry
    | cons next entries =>
      rw [String.intercalate_cons_cons]
      exact hentry.comma ih

theorem spells_write (n : Nat) : Numeral.Spells (String.ofList (Numeral.write n)).toList n := by
  rw [String.toList_ofList]
  exact ⟨Numeral.write n, .inl rfl, Numeral.write_ne_nil n, fun _ => Numeral.isDigit_of_mem_write,
    Nat.ofDigitChars_ten_toDigits⟩

theorem spells_written (s : Settings) : Spells s.written s where
  host := rfl
  port := spells_write _
  origins := lists_intercalate _
  requestTimeout := spells_write _
  shutdownTimeout := spells_write _
  retries := spells_write _
  order := rfl

end Spelled

/-! ## What is refused -/

/-- The name of the entry that cannot be used. -/
def Fault.name : Fault → String
  | .number name _ _ => name
  | .order _ => "SLUG_ITERATION_ORDER"

theorem Fault.message_eq (fault : Fault) : ∃ rest, fault.message = fault.name ++ rest := by
  cases fault with
  | number name type fault =>
    show ∃ rest, name ++ " must be a valid " ++ type ++ ": ParseIntError \x7b kind: " ++
      faultName fault ++ " \x7d" =
      name ++ rest
    simp only [String.append_assoc]
    exact ⟨_, rfl⟩
  | order e =>
    refine ⟨" is invalid: " ++ e.message, ?_⟩
    rw [← String.append_assoc]
    rfl

/-- A numeral of a number below `size`. -/
def IsNumber (size : Nat) (text : String) : Prop := ∃ n < size, Numeral.Spells text.toList n

/-- The name of an order. -/
def IsOrder (text : String) : Prop := ∃ order : VariantOrder, text = order.name

/-- The names whose texts must have a form, in the order in which they are read. -/
def forms : List (String × (String → Prop)) :=
  [("PORT", IsNumber UInt16.size), ("REQUEST_TIMEOUT_SECS", IsNumber UInt64.size),
    ("SHUTDOWN_TIMEOUT_SECS", IsNumber UInt64.size), ("SLUG_MAX_RETRIES", IsNumber UInt32.size),
    ("SLUG_ITERATION_ORDER", IsOrder)]

/-- The first name that is set to a text without its form. -/
inductive FirstBad (env : Environment) :
    (entries : List (String × (String → Prop))) → (bad : String) → Prop
  | here {name text : String} {form : String → Prop} {entries : List (String × (String → Prop))}
      (hset : env name = some text) (h : ¬form text) : FirstBad env ((name, form) :: entries) name
  | later {name bad : String} {form : String → Prop} {entries : List (String × (String → Prop))}
      (hgood : ∀ text, env name = some text → form text) (h : FirstBad env entries bad) :
      FirstBad env ((name, form) :: entries) bad

section Refused

variable {α β : Type} {env : Environment} {name bad type default text : String}
  {form : String → Prop} {entries : List (String × (String → Prop))} {x : Except Fault α}
  {f : α → Except Fault β} {size : Nat}

theorem firstBad_cons_of_bad (hset : env name = some text) (h : ¬form text) :
    FirstBad env ((name, form) :: entries) bad ↔ bad = name := by
  constructor
  · rintro (_ | ⟨hgood, -⟩)
    · rfl
    · exact absurd (hgood text hset) h
  · rintro rfl
    exact .here hset h

theorem firstBad_cons_of_good (hgood : ∀ text, env name = some text → form text) :
    FirstBad env ((name, form) :: entries) bad ↔ FirstBad env entries bad := by
  constructor
  · rintro (⟨hset, h⟩ | ⟨-, h⟩)
    · exact absurd (hgood _ hset) h
    · exact h
  · exact .later hgood

/-- What is read from the entries is refused for the first bad one, and not refused if there is
none. -/
structure FailsFirst (env : Environment) (entries : List (String × (String → Prop)))
    (x : Except Fault α) :
    Prop where
  error {fault : Fault} (h : x = .error fault) (bad : String) : FirstBad env entries bad ↔
    bad = fault.name
  ok {a : α} (h : x = .ok a) (bad : String) : ¬FirstBad env entries bad

theorem failsFirst_pure (a : α) : FailsFirst env [] (pure a) where
  error h := nomatch h
  ok _ _ := nofun

theorem FailsFirst.bind (hdefault : form default)
    (hok : ∀ a, x = .ok a → form ((env name).getD default))
    (herror : ∀ fault, x = .error fault → fault.name = name ∧ ¬form ((env name).getD default))
    (hf : ∀ a, FailsFirst env entries (f a)) :
    FailsFirst env ((name, form) :: entries) (x >>= f) := by
  cases x with
  | error fault =>
    obtain ⟨hname, hbad⟩ := herror fault rfl
    obtain ⟨text, hset, htext⟩ : ∃ text, env name = some text ∧ ¬form text := by
      cases hset : env name with
      | none => exact absurd hdefault (by rwa [hset] at hbad)
      | some text => exact ⟨text, rfl, by rwa [hset] at hbad⟩
    refine ⟨fun h bad => ?_, fun h => nomatch h⟩
    cases h
    rw [hname]
    exact firstBad_cons_of_bad hset htext
  | ok a =>
    have hgood : ∀ text, env name = some text → form text := by
      intro text hset
      have hform := hok a rfl
      rwa [hset] at hform
    refine ⟨fun h bad => ?_, fun h bad => ?_⟩
    · rw [firstBad_cons_of_good hgood]
      exact (hf a).error h bad
    · rw [firstBad_cons_of_good hgood]
      exact (hf a).ok h bad

theorem FailsFirst.number {f : Nat → Except Fault β} (hsize : 0 < size)
    (hdefault : IsNumber size default) (hf : ∀ n, FailsFirst env entries (f n)) :
    FailsFirst env ((name, IsNumber size) :: entries)
      (Settings.number env name type size default >>= f) := by
  refine .bind hdefault (fun n hn => ?_) (fun fault hfault => ⟨?_, ?_⟩) hf
  · obtain ⟨hspells, hlt⟩ := (number_eq_ok hsize).mp hn
    exact ⟨n, hlt, hspells⟩
  · unfold Settings.number at hfault
    split at hfault
    · cases hfault
      rfl
    · cases hfault
  · rintro ⟨n, hlt, hspells⟩
    cases hfault.symm.trans ((number_eq_ok hsize).mpr ⟨hspells, hlt⟩)

theorem FailsFirst.order {f : VariantOrder → Except Fault β}
    (hf : ∀ o, FailsFirst env entries (f o)) :
    FailsFirst env (("SLUG_ITERATION_ORDER", IsOrder) :: entries) (Settings.order env >>= f) := by
  have hdefault : IsOrder "latest_created" := ⟨.newest, rfl⟩
  refine .bind hdefault (fun o ho => ⟨o, order_eq_ok.mp ho⟩) (fun fault hfault => ⟨?_, ?_⟩) hf
  · unfold Settings.order at hfault
    split at hfault
    · cases hfault
      rfl
    · cases hfault
  · rintro ⟨o, ho⟩
    cases hfault.symm.trans (order_eq_ok.mpr ho)

/-- **An environment is refused** for the first name that is set to a text without its form. -/
theorem failsFirst_ofEnvironment (env : Environment) :
    FailsFirst env forms (ofEnvironment env) := by
  refine .number (by decide) ⟨3000, by decide, spells_write 3000⟩ fun port => ?_
  refine .number (by decide) ⟨30, by decide, spells_write 30⟩ fun requestTimeout => ?_
  refine .number (by decide) ⟨30, by decide, spells_write 30⟩ fun shutdownTimeout => ?_
  refine .number (by decide) ⟨1, by decide, spells_write 1⟩ fun retries => ?_
  exact .order fun order => failsFirst_pure _

end Refused

end Settings

open Settings

/-- **Settings that are written out are read back.** An environment has the settings that it spells:
what is not set is the default, numbers may have zeros and a plus before them, and the origins stand
between commas, with blanks and empty pieces wherever one likes. So what has been written out
plainly is read back if its origins can stand in such a list, and all settings that are read are of
this kind. Every other environment is refused for the first name, in the order of reading, that is
set to a text without the form for it, and this name comes first in what is said. -/
theorem settings_readBack :
    (∀ env s, ofEnvironment env = .ok s ↔ s.Proper ∧ Spells env s) ∧
    (∀ s : Settings, ofEnvironment s.written = .ok s ↔ s.Proper) ∧
    ∀ env, (∃ s, ofEnvironment env = .ok s ∧ s.Proper ∧ ∀ name, ¬FirstBad env forms name) ∨
      ∃ fault rest, ofEnvironment env = .error fault ∧ (∀ name, FirstBad env forms name ↔
        name = fault.name) ∧
        fault.message = fault.name ++ rest := by
  refine ⟨fun env s => ofEnvironment_eq_ok, fun s => ?_, fun env => ?_⟩
  · rw [ofEnvironment_eq_ok, and_iff_left (spells_written s)]
  · have hfirst := failsFirst_ofEnvironment env
    cases h : ofEnvironment env with
    | ok s => exact .inl ⟨s, rfl, (ofEnvironment_eq_ok.mp h).1, hfirst.ok h⟩
    | error fault =>
      obtain ⟨rest, hrest⟩ := fault.message_eq
      exact .inr ⟨fault, rest, rfl, hfirst.error h, hrest⟩

example : ofEnvironment (fun
    | "PORT" => some "+00080"
    | "SLUG_MAX_RETRIES" => some "-0"
    | "SLUG_ITERATION_ORDER" => some ""
    | _ => none) = .error (.number "SLUG_MAX_RETRIES" "u32" .invalidDigit) := by decide

end Storyline

import Storyline.Proofs.Fields
import Storyline.Proofs.Growth
import Storyline.Proofs.Rendering
import Storyline.Proofs.Rules

/-!
# What documents hold

What the bodies of requests and the rows of responses hold, told by the fields of a draft and
without the readers and writers of the service.

* `HoldsOptional`, `HoldsList`: what stands for a field with an optional value, and with a list;
  `Supplied.eq_singleton`, `Supplied.holdsOptional`, `Supplied.holdsList`: fields that have been
  read;
* `Survives`: what is read again as it was written; **`BeatDefinition.reader_eq_ok`**: all forms
  of a definition;
* `BeatDefinition.StandsIn`, `Beat.StandsIn`: definitions and beats;
* `LoglineInput.StandsIn`, ...: what a body holds, with `LoglineInput.standsIn_of_read`, ...;
* `Addition.StandsIn`, **`Addition.standsIn_toJson`**: a row that is shown.
-/

namespace Storyline

open Http

namespace Json

variable {α : Type} {read : Reader α} {written : α → Draft} {values : List Draft} {d : Draft}

/-- A text as a draft. -/
abbrev Draft.text (s : String) : Draft := .str (some s)

/-- A number of 32 bits as a draft. -/
abbrev Draft.number (n : UInt32) : Draft := .int n.toNat

/-- What stands for a field that may be left out or be `null`. -/
def HoldsOptional (written : α → Draft) (values : List Draft) : Option α → Prop
  | some a => values = [written a]
  | none => values = [] ∨ values = [.null]

/-- What stands for a field with a list. -/
def HoldsList (standsIn : α → Draft → Prop) (values : List Draft) (as : List α) : Prop :=
  ∃ items, values = [.arr items] ∧ List.Forall₂ standsIn as items.toList

/-! ## Readers -/

theorem text_eq_ok {s : String} (h : Reader.text d = .ok s) : d = .text s := by
  unfold Reader.text at h
  split at h
  · cases h
    rfl
  · cases h

theorem integer_eq_ok {low high n : Int} (h : Reader.integer low high d = .ok n) :
    d = .int n ∧ low ≤ n ∧ n ≤ high := by
  unfold Reader.integer at h
  split at h
  · split_ifs at h with hrange
    cases h
    simpa using hrange
  · cases h

theorem uint32_eq_ok {n : UInt32} (h : Reader.uint32 d = .ok n) : d = .number n := by
  obtain ⟨m, hm, rfl⟩ := map_eq_ok.mp h
  obtain ⟨rfl, hlow, hhigh⟩ := integer_eq_ok hm
  have hlt : m.toNat < UInt32.size := by simp only [UInt32.size]; omega
  rw [Draft.number, UInt32.toNat_ofNat_of_lt' hlt, Int.toNat_of_nonneg hlow]

theorem items_eq_ok_draft {as : List α} (h : Reader.items read d = .ok as) :
    ∃ items, d = .arr items ∧ List.Forall₂ (fun d a => read d = .ok a) items.toList as := by
  unfold Reader.items at h
  split at h
  · next items => exact ⟨items, rfl, ((itemsOf_eq_ok items).mp h).2⟩
  · cases h

/-! ## Fields -/

theorem Supplied.eq_singleton {a : α} (hread : ∀ {d a}, read d = .ok a → d = written a)
    (h : Supplied read none values a) : values = [written a] := by
  rcases h with ⟨rfl, h⟩ | ⟨-, h⟩
  · rw [hread h]
  · cases h

theorem Supplied.holdsOptional {o : Option α} (hread : ∀ {d a}, read d = .ok a → d = written a)
    (h : Supplied read.nullable (some none) values o) : HoldsOptional written values o := by
  rcases h with ⟨rfl, h⟩ | ⟨rfl, h⟩
  · unfold Reader.nullable at h
    split at h
    · cases h
      exact .inr rfl
    · obtain ⟨a, ha, rfl⟩ := map_eq_ok.mp h
      exact congrArg (fun d => [d]) (hread ha)
  · cases h
    exact .inl rfl

theorem Supplied.holdsList {standsIn : α → Draft → Prop} {as : List α}
    (hread : ∀ {d a}, read d = .ok a → standsIn a d)
    (h : Supplied (Reader.items read) none values as) : HoldsList standsIn values as := by
  rcases h with ⟨rfl, h⟩ | ⟨-, h⟩
  · obtain ⟨items, rfl, hitems⟩ := items_eq_ok_draft h
    exact ⟨items, rfl, (hitems.imp fun _ _ => hread).flip⟩
  · cases h

theorem Supplied.text {d' : Draft} {s : String}
    (h : Supplied Reader.text (d'.missing none none) values s) : values = [.text s] :=
  (h.of_missing (.inl rfl)).eq_singleton text_eq_ok

theorem Supplied.optionalText {d' : Draft} {o : Option String}
    (h : Supplied Reader.text.nullable (d'.missing (some none) none) values o) :
    HoldsOptional .text values o :=
  (h.of_missing (.inl rfl)).holdsOptional text_eq_ok

end Json

open Json

/-! ## Reading what is written -/

section Survives

variable {α : Type} {read : Reader α} {write : α → Json}

/-- What is written is plain, and is read as what it was. -/
structure Survives (read : Reader α) (write : α → Json) : Prop where
  plain : ∀ a, Plain (write a)
  reads : ∀ a, read (.ofJson (write a)) = .ok a

theorem Survives.decode (h : Survives read write) (a : α) : decode read (write a).render = .ok a :=
  (decode_render (h.plain a) read).trans (h.reads a)

theorem Survives.items (h : Survives read write) :
    Survives (Reader.items read) fun as => .arr (as.map write) where
  plain as := by
    refine .arr fun j hj => ?_
    obtain ⟨a, -, rfl⟩ := List.mem_map.mp hj
    exact h.plain a
  reads as := by
    refine items_eq_ok.mpr ⟨_, rfl, ?_⟩
    rw [List.forall₂_map_left_iff]
    exact List.forall₂_same.mpr fun a _ => h.reads a

theorem survives_text : Survives Reader.text .str := ⟨.str, fun _ => rfl⟩

end Survives

/-! ## Definitions and beats -/

namespace BeatDefinition

variable {d : BeatDefinition} {j : Json} {ms ms' : List (String × Json)} {items : List Json}

/-- The members of an object give a definition. -/
structure GivenBy (d : BeatDefinition) (ms : List (String × Json)) : Prop where
  key : Given "key" Reader.text none ms d.key
  name : Given "name" Reader.text none ms d.name
  keyPoints : Given "key_points" (Reader.items Reader.text) (some []) ms d.keyPoints
  purpose : Given "purpose" Reader.text (some "") ms d.purpose
  minScenes : Given "min_scenes" (Reader.nullable Reader.uint32) (some none) ms d.minScenes
  maxScenes : Given "max_scenes" (Reader.nullable Reader.uint32) (some none) ms d.maxScenes

/-- The items of an array give a definition; only what has a default may be cut off. -/
structure ListedBy (d : BeatDefinition) (items : List Json) : Prop where
  key : Placed Reader.text none items[0]? d.key
  name : Placed Reader.text none items[1]? d.name
  keyPoints : Placed (Reader.items Reader.text) (some []) items[2]? d.keyPoints
  purpose : Placed Reader.text (some "") items[3]? d.purpose
  minScenes : Placed (Reader.nullable Reader.uint32) (some none) items[4]? d.minScenes
  maxScenes : Placed (Reader.nullable Reader.uint32) (some none) items[5]? d.maxScenes
  length : items.length ≤ 6

/-- A definition as it may be written. -/
inductive WrittenAs (d : BeatDefinition) : Json → Prop
  | obj {ms : List (String × Json)} (h : d.GivenBy ms) : WrittenAs d (.obj ms)
  | arr {items : List Json} (h : d.ListedBy items) : WrittenAs d (.arr items)

/-- The names of the members. -/
def names : List String := ["key", "name", "key_points", "purpose", "min_scenes", "max_scenes"]

theorem GivenBy.of_perm (h : ∀ name ∈ names, (membersOf name ms').Perm (membersOf name ms))
    (hd : d.GivenBy ms) :
    d.GivenBy ms' where
  key := hd.key.of_perm (h _ (by decide))
  name := hd.name.of_perm (h _ (by decide))
  keyPoints := hd.keyPoints.of_perm (h _ (by decide))
  purpose := hd.purpose.of_perm (h _ (by decide))
  minScenes := hd.minScenes.of_perm (h _ (by decide))
  maxScenes := hd.maxScenes.of_perm (h _ (by decide))

/-- **What is read as a definition**, and as which one. -/
theorem reader_eq_ok : BeatDefinition.reader (.ofJson j) = .ok d ↔ d.WrittenAs j := by
  rw [BeatDefinition.reader, map_eq_ok]
  cases j with
  | obj ms =>
    constructor
    · rintro ⟨⟨key, name, keyPoints, purpose, minScenes, maxScenes, ⟨⟩⟩, hread, rfl⟩
      obtain ⟨hkey, hname, hkeyPoints, hpurpose, hmin, hmax, -⟩ :=
        (Record.read_obj (by decide)).mp hread
      exact .obj ⟨hkey, hname, hkeyPoints, hpurpose, hmin, hmax⟩
    · rintro (⟨hkey, hname, hkeyPoints, hpurpose, hmin, hmax⟩ | -)
      exact ⟨(_, _, _, _, _, _, ()), (Record.read_obj (by decide)).mpr
        ⟨hkey, hname, hkeyPoints, hpurpose, hmin, hmax, trivial⟩, rfl⟩
  | arr items =>
    constructor
    · rintro ⟨⟨key, name, keyPoints, purpose, minScenes, maxScenes, ⟨⟩⟩, hread, rfl⟩
      obtain ⟨hkey, hname, hkeyPoints, hpurpose, hmin, hmax, hlength⟩ := Record.read_arr.mp hread
      exact .arr ⟨hkey, hname, hkeyPoints, hpurpose, hmin, hmax, hlength⟩
    · rintro (- | ⟨hkey, hname, hkeyPoints, hpurpose, hmin, hmax, hlength⟩)
      exact ⟨(_, _, _, _, _, _, ()), Record.read_arr.mpr
        ⟨hkey, hname, hkeyPoints, hpurpose, hmin, hmax, hlength⟩, rfl⟩
  | _ => exact ⟨fun ⟨_, h, _⟩ => (nomatch h), nofun⟩

theorem uint32_toNat (n : UInt32) : Reader.uint32 (.int n.toNat) = .ok n := by
  have hle : n.toNat ≤ 0xFFFFFFFF := Nat.le_of_lt_succ n.toNat_lt
  simp [Reader.uint32, Reader.integer, hle, Except.map]

theorem membersOf_sceneBound (name name' : String) (bound : Option UInt32) :
    membersOf name (sceneBound name' bound) =
      if name' = name then sceneBound name' bound else [] := by
  cases bound <;> simp [sceneBound, List.filter_cons]

theorem given_sceneBound {name : String} {bound : Option UInt32}
    (h : membersOf name ms = sceneBound name bound) :
    Given name (Reader.nullable Reader.uint32) (some none) ms bound := by
  cases bound with
  | none => exact .absent h rfl
  | some n =>
    refine .present h ?_
    change (Reader.uint32 (.int n.toNat)).map some = _
    rw [uint32_toNat]
    rfl

theorem writtenAs_toJson (d : BeatDefinition) : d.WrittenAs d.toJson := by
  refine .obj ⟨.present (j := .str d.key) ?_ rfl, .present (j := .str d.name) ?_ rfl,
    .present ?_ (survives_text.items.reads d.keyPoints), .present (j := .str d.purpose) ?_ rfl,
    given_sceneBound ?_, given_sceneBound ?_⟩
  all_goals simp [List.filter_append, membersOf_sceneBound]

theorem plain_sceneBound (name : String) (bound : Option UInt32) :
    ∀ member ∈ sceneBound name bound, Plain member.2 := by
  cases bound with
  | none => exact fun _ h => nomatch h
  | some n => exact List.forall_mem_singleton.mpr (.int (n.toNat_lt.trans (by decide)))

theorem survives : Survives BeatDefinition.reader toJson where
  plain d := by
    refine .obj (List.forall_mem_append.mpr ⟨List.forall_mem_append.mpr ⟨?_, plain_sceneBound _ _⟩,
      plain_sceneBound _ _⟩)
    have hpoints := survives_text.items.plain d.keyPoints
    simp [Plain.str, hpoints]
  reads d := reader_eq_ok.mpr d.writtenAs_toJson

end BeatDefinition

theorem Beat.survives : Survives Beat.reader toJson where
  plain b := .obj (by simp [Plain.str])
  reads b := rfl

/-- The draft holds a definition, where only key and name have to be given. -/
structure BeatDefinition.StandsIn (b : BeatDefinition) (d : Draft) : Prop where
  key : d.field "key" 0 = [.text b.key]
  name : d.field "name" 1 = [.text b.name]
  keyPoints : d.field "key_points" 2 = [] ∧ b.keyPoints = [] ∨
    HoldsList (fun s item => item = .text s) (d.field "key_points" 2) b.keyPoints
  purpose : d.field "purpose" 3 = [] ∧ b.purpose = "" ∨ d.field "purpose" 3 = [.text b.purpose]
  minScenes : HoldsOptional .number (d.field "min_scenes" 4) b.minScenes
  maxScenes : HoldsOptional .number (d.field "max_scenes" 5) b.maxScenes

theorem BeatDefinition.standsIn_of_read {b : BeatDefinition} {d : Draft}
    (h : BeatDefinition.reader d = .ok b) : b.StandsIn d := by
  obtain ⟨⟨key, name, keyPoints, purpose, minScenes, maxScenes, ⟨⟩⟩, hread, rfl⟩ := map_eq_ok.mp h
  obtain ⟨hkey, hname, hkeyPoints, hpurpose, hmin, hmax, -⟩ :=
    Record.suppliedBy_of_read (by decide) hread
  refine ⟨hkey.text, hname.text, ?_, ?_, (hmin.of_missing (.inr rfl)).holdsOptional uint32_eq_ok,
    (hmax.of_missing (.inr rfl)).holdsOptional uint32_eq_ok⟩
  · rcases hkeyPoints.of_missing (.inr rfl) with ⟨hone, hpoints⟩ | ⟨hnone, hdefault⟩
    · exact .inr ((Supplied.present hone hpoints).holdsList text_eq_ok)
    · exact .inl ⟨hnone, (Option.some.inj hdefault).symm⟩
  · rcases hpurpose.of_missing (.inr rfl) with ⟨hone, htext⟩ | ⟨hnone, hdefault⟩
    · exact .inr ((Supplied.present hone htext).eq_singleton text_eq_ok)
    · exact .inl ⟨hnone, (Option.some.inj hdefault).symm⟩

/-- The draft holds a beat. -/
structure Beat.StandsIn (b : Beat) (d : Draft) : Prop where
  key : d.field "key" 0 = [.text b.key]
  title : d.field "title" 1 = [.text b.title]
  content : d.field "content" 2 = [.text b.content]

theorem Beat.standsIn_of_read {b : Beat} {d : Draft} (h : Beat.reader d = .ok b) :
    b.StandsIn d := by
  obtain ⟨⟨key, title, content, ⟨⟩⟩, hread, rfl⟩ := map_eq_ok.mp h
  obtain ⟨hkey, htitle, hcontent, -⟩ := Record.suppliedBy_of_read (by decide) hread
  exact ⟨hkey.text, htitle.text, hcontent.text⟩

/-! ## Bodies -/

/-- The draft holds a logline, perhaps without a slug. -/
structure LoglineInput.StandsIn (input : LoglineInput) (d : Draft) : Prop where
  slug : HoldsOptional .text (d.field "slug" 0) input.slug
  name : d.field "name" 1 = [.text input.name]
  content : d.field "content" 2 = [.text input.content]

theorem LoglineInput.standsIn_of_read {input : LoglineInput} {d : Draft}
    (h : LoglineInput.reader d = .ok input) : input.StandsIn d := by
  obtain ⟨⟨slug, name, content, ⟨⟩⟩, hread, rfl⟩ := map_eq_ok.mp h
  obtain ⟨hslug, hname, hcontent, -⟩ := Record.suppliedBy_of_read (by decide) hread
  exact ⟨hslug.optionalText, hname.text, hcontent.text⟩

/-- The draft holds a story plan, perhaps without a slug. -/
structure StoryPlanInput.StandsIn (input : StoryPlanInput) (d : Draft) : Prop where
  slug : HoldsOptional .text (d.field "slug" 0) input.slug
  name : d.field "name" 1 = [.text input.name]
  description : HoldsOptional .text (d.field "description" 2) input.description
  beats : HoldsList BeatDefinition.StandsIn (d.field "beats" 3) input.beats

theorem StoryPlanInput.standsIn_of_read {input : StoryPlanInput} {d : Draft}
    (h : StoryPlanInput.reader d = .ok input) : input.StandsIn d := by
  obtain ⟨⟨slug, name, description, beats, ⟨⟩⟩, hread, rfl⟩ := map_eq_ok.mp h
  obtain ⟨hslug, hname, hdescription, hbeats, -⟩ := Record.suppliedBy_of_read (by decide) hread
  exact ⟨hslug.optionalText, hname.text, hdescription.optionalText,
    (hbeats.of_missing (.inl rfl)).holdsList BeatDefinition.standsIn_of_read⟩

/-- The draft holds a further iteration. -/
structure StoryPlanRevision.StandsIn (input : StoryPlanRevision) (d : Draft) : Prop where
  name : d.field "name" 0 = [.text input.name]
  description : HoldsOptional .text (d.field "description" 1) input.description
  beats : HoldsList BeatDefinition.StandsIn (d.field "beats" 2) input.beats

theorem StoryPlanRevision.standsIn_of_read {input : StoryPlanRevision} {d : Draft}
    (h : StoryPlanRevision.reader d = .ok input) : input.StandsIn d := by
  obtain ⟨⟨name, description, beats, ⟨⟩⟩, hread, rfl⟩ := map_eq_ok.mp h
  obtain ⟨hname, hdescription, hbeats, -⟩ := Record.suppliedBy_of_read (by decide) hread
  exact ⟨hname.text, hdescription.optionalText,
    (hbeats.of_missing (.inl rfl)).holdsList BeatDefinition.standsIn_of_read⟩

/-- The draft holds a sheet, with the slugs of its logline and of its plan. -/
structure BeatsSheetInput.StandsIn (input : BeatsSheetInput) (d : Draft) : Prop where
  loglineSlug : d.field "logline_slug" 0 = [.text input.loglineSlug]
  storyPlanSlug : d.field "story_plan_slug" 1 = [.text input.storyPlanSlug]
  content : HoldsList Beat.StandsIn (d.field "content" 2) input.content

theorem BeatsSheetInput.standsIn_of_read {input : BeatsSheetInput} {d : Draft}
    (h : BeatsSheetInput.reader d = .ok input) : input.StandsIn d := by
  obtain ⟨⟨loglineSlug, storyPlanSlug, content, ⟨⟩⟩, hread, rfl⟩ := map_eq_ok.mp h
  obtain ⟨hlogline, hplan, hcontent, -⟩ := Record.suppliedBy_of_read (by decide) hread
  exact ⟨hlogline.text, hplan.text,
    (hcontent.of_missing (.inl rfl)).holdsList Beat.standsIn_of_read⟩

/-- The draft holds the beats of a sheet. -/
structure ContentInput.StandsIn (input : ContentInput) (d : Draft) : Prop where
  content : HoldsList Beat.StandsIn (d.field "content" 0) input.content

theorem ContentInput.standsIn_of_read {input : ContentInput} {d : Draft}
    (h : ContentInput.reader d = .ok input) : input.StandsIn d := by
  obtain ⟨⟨content, ⟨⟩⟩, hread, rfl⟩ := map_eq_ok.mp h
  obtain ⟨hcontent, -⟩ := Record.suppliedBy_of_read (by decide) hread
  exact ⟨(hcontent.of_missing (.inl rfl)).holdsList Beat.standsIn_of_read⟩

/-- What the body of a request holds. -/
def Http.Request.draft (r : Request) : Draft := (Draft.ofText r.body).1

theorem bodyOf_eq_ok {α : Type} {reader : Reader α} {r : Request} {a : α}
    (h : bodyOf reader r = .ok a) : reader r.draft = .ok a := by
  unfold bodyOf at h
  split_ifs at h with hjson hlarge
  have hdecode := mapError_eq_ok.mp h
  simp only [decode] at hdecode
  split at hdecode
  · cases hdecode
  · next hread =>
    split_ifs at hdecode
    cases hdecode
    exact hread

/-! ## Rows that are shown -/

/-- The draft shows a logline. -/
structure Logline.StandsIn (row : Logline) (d : Draft) : Prop where
  id : d.field "id" 0 = [.int row.id]
  userId : d.field "user_id" 1 = [.int row.userId]
  slug : d.field "slug" 2 = [.text row.slug]
  name : d.field "name" 3 = [.text row.name]
  content : d.field "content" 4 = [.text row.content]
  createdAt : d.field "created_at" 5 = [.text (Timestamp.render row.createdAt)]

/-- The draft shows an iteration of a story plan. -/
structure StoryPlan.StandsIn (row : StoryPlan) (d : Draft) : Prop where
  id : d.field "id" 0 = [.int row.id]
  slug : d.field "slug" 1 = [.text row.slug]
  name : d.field "name" 2 = [.text row.name]
  description : HoldsOptional .text (d.field "description" 3) row.description
  beats : HoldsList BeatDefinition.StandsIn (d.field "beats" 4) row.beats
  createdAt : d.field "created_at" 5 = [.text (Timestamp.render row.createdAt)]

/-- The draft shows a sheet. -/
structure BeatsSheet.StandsIn (row : BeatsSheet) (d : Draft) : Prop where
  id : d.field "id" 0 = [.int row.id]
  loglineId : d.field "logline_id" 1 = [.int row.loglineId]
  storyPlanId : d.field "story_plan_id" 2 = [.int row.storyPlanId]
  content : HoldsList Beat.StandsIn (d.field "content" 3) row.content
  createdAt : d.field "created_at" 4 = [.text (Timestamp.render row.createdAt)]

/-- The draft shows the row that has been added. -/
def Addition.StandsIn : Addition → Draft → Prop
  | .logline row => row.StandsIn
  | .plan _ row | .iteration row => row.StandsIn
  | .sheet row => row.StandsIn

theorem StoryPlan.reads_toJson (plan : StoryPlan) :
    StoryPlanRevision.reader (.ofJson plan.toJson) = .ok ⟨plan.name, plan.description,
      plan.beats⟩ := by
  rw [StoryPlanRevision.reader, map_eq_ok]
  refine ⟨(plan.name, plan.description, plan.beats, ()), (Record.read_obj (by decide)).mpr ?_, rfl⟩
  refine ⟨.present (j := .str plan.name) ?_ rfl,
    .present (j := optionalText plan.description) ?_ ?_,
    .present ?_ (BeatDefinition.survives.items.reads plan.beats), trivial⟩
  · simp
  · simp
  · cases plan.description <;> rfl
  · simp

theorem BeatsSheet.reads_toJson (sheet : BeatsSheet) :
    ContentInput.reader (.ofJson sheet.toJson) = .ok ⟨sheet.content⟩ := by
  rw [ContentInput.reader, map_eq_ok]
  refine ⟨(sheet.content, ()), (Record.read_obj (by decide)).mpr ?_, rfl⟩
  exact ⟨.present (by simp) (Beat.survives.items.reads sheet.content), trivial⟩

end Storyline

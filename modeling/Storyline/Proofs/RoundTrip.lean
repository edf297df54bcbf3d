import Storyline.Proofs.Documents
import Storyline.Proofs.Pinned

/-!
# Beats that are written and read again

Definitions and beats are stored and shown as JSON, and come back as they were.

* `Fulfils.definitions`, `Fulfils.content`: what a request brings is stored;
* `Session.stored_stays`: what a request brings is in the tables ever after;
* **`beats_survive`**: lists of definitions and of beats, from the body of a request to the rows.
-/

namespace Storyline

open Http Json

/-! ## Requests -/

/-- The beats in the body of a request for a sheet or for a renewal of one. -/
def Http.Request.content? (r : Request) : Option (List Beat) :=
  match Place.ofTarget? r.target with
  | some .sheets => (bodyOf BeatsSheetInput.reader r).toOption.map BeatsSheetInput.content
  | some (.sheet _) => (bodyOf ContentInput.reader r).toOption.map ContentInput.content
  | _ => none

section Requests

variable {r : Request} {t : Tables} {e : Addition}

theorem Fulfils.definitions (h : Fulfils r t e) {ds : List BeatDefinition}
    (hds : r.definitions? = some ds) :
    ∃ plan ∈ (t.add e).plans.rows, plan.toJson = e.toJson ∧ plan.beats = ds := by
  have hlast (row : StoryPlan) : row ∈ (t.plans.append row).rows :=
    List.mem_append_right _ (List.mem_singleton.mpr rfl)
  cases h with
  | @plan input _ _ row _ hplace hinput _ _ _ _ hbeats =>
    have hbrings : r.definitions? = some input.beats := by
      simp [Request.definitions?, hplace, hinput, Except.toOption]
    exact ⟨row, hlast row, rfl, hbeats.trans (Option.some.inj (hbrings.symm.trans hds))⟩
  | @iteration _ _ input row _ hplace _ hinput _ _ _ hbeats =>
    have hbrings : r.definitions? = some input.beats := by
      simp [Request.definitions?, hplace, hinput, Except.toOption]
    exact ⟨row, hlast row, rfl, hbeats.trans (Option.some.inj (hbrings.symm.trans hds))⟩
  | logline _ hplace => simp [Request.definitions?, hplace] at hds
  | sheet _ hplace => simp [Request.definitions?, hplace] at hds
  | renewal _ hplace => simp [Request.definitions?, hplace] at hds

theorem Fulfils.content (h : Fulfils r t e) {bs : List Beat} (hbs : r.content? = some bs) :
    ∃ sheet ∈ (t.add e).sheets.rows, sheet.toJson = e.toJson ∧ sheet.content = bs := by
  have hlast (row : BeatsSheet) : row ∈ (t.sheets.append row).rows :=
    List.mem_append_right _ (List.mem_singleton.mpr rfl)
  cases h with
  | @sheet _ input _ _ row _ hplace _ hinput _ _ _ hcontent =>
    have hbrings : r.content? = some input.content := by
      simp [Request.content?, hplace, hinput, Except.toOption]
    exact ⟨row, hlast row, rfl, hcontent.trans (Option.some.inj (hbrings.symm.trans hbs))⟩
  | @renewal _ _ input _ row _ hplace _ hinput _ _ hcontent =>
    have hbrings : r.content? = some input.content := by
      simp [Request.content?, hplace, hinput, Except.toOption]
    exact ⟨row, hlast row, rfl, hcontent.trans (Option.some.inj (hbrings.symm.trans hbs))⟩
  | logline _ hplace => simp [Request.content?, hplace] at hbs
  | plan _ hplace => simp [Request.content?, hplace] at hbs
  | iteration _ hplace => simp [Request.content?, hplace] at hbs

/-- What a request has stored with success is shown at once and is in the tables ever after. -/
theorem Session.stored_stays {s : Service} {w : Conditions} (before after : List Request)
    (hr : r.writes) (hsucceeds : ((session s w before).answer s w r).succeeds) :
    ∃ t e, Fulfils r t e ∧ ((session s w before).answer s w r).shows e.toJson ∧
      (t.add e).Extends (session s w (before ++ r :: after)).tables := by
  have hlater := session_extends (s := s) (w := w) (before ++ [r]) after
  rw [List.append_assoc, session_concat] at hlater
  rcases (session s w before).serve_cases r with
    ⟨-, hidle⟩ | ⟨t, q, e, -, hp, hadds, htables, -, -, hshows⟩
  · exact absurd hsucceeds (hidle hr)
  · exact ⟨t, e, hp.fulfils hadds, hshows, htables ▸ hlater⟩

end Requests

/-! ## Lists -/

/-- Read a list of definitions. -/
abbrev BeatDefinition.readList : Reader (List BeatDefinition) := Reader.items BeatDefinition.reader

/-- Write a list of definitions. -/
abbrev BeatDefinition.writeList (ds : List BeatDefinition) : Json := .arr (ds.map toJson)

/-- Read a list of beats. -/
abbrev Beat.readList : Reader (List Beat) := Reader.items Beat.reader

/-- Write a list of beats. -/
abbrev Beat.writeList (bs : List Beat) : Json := .arr (bs.map toJson)

/-- **Beats survive.** Every list of definitions, and every list of beats, is read from its text as
it was written. Whatever else is read as a list of definitions is an array of their objects, whose
members may stand in any order among others, and of their arrays, and is read as the same list after
it has been written once more. The definitions that a request brings are those of a row that is
shown at once and stays, and so are the beats of a sheet. -/
theorem beats_survive :
    (∀ ds, decode BeatDefinition.readList (BeatDefinition.writeList ds).render = .ok ds ∧
      BeatDefinition.readList (.ofJson (BeatDefinition.writeList ds)) = .ok ds) ∧
    (∀ bs, decode Beat.readList (Beat.writeList bs).render = .ok bs ∧
      Beat.readList (.ofJson (Beat.writeList bs)) = .ok bs) ∧
    (∀ j ds, BeatDefinition.readList (.ofJson j) = .ok ds ↔
      ∃ items, j = .arr items ∧ List.Forall₂ (fun item d => BeatDefinition.WrittenAs d item)
        items ds) ∧
    (∀ j, (BeatDefinition.readList (.ofJson j) >>= fun ds =>
      BeatDefinition.readList (.ofJson (BeatDefinition.writeList ds))) =
        BeatDefinition.readList (.ofJson j)) ∧
    (∀ text, (decode BeatDefinition.readList text >>= fun ds =>
      decode BeatDefinition.readList (BeatDefinition.writeList ds).render) =
        decode BeatDefinition.readList text) ∧
    (∀ (d : BeatDefinition) ms ms',
      (∀ name ∈ BeatDefinition.names, (membersOf name ms').Perm (membersOf name ms)) →
      d.WrittenAs (.obj ms) → d.WrittenAs (.obj ms')) ∧
    ∀ (s : Service) (w : Conditions) (before after : List Request) (r : Request),
      let response := (session s w before).answer s w r
      let t := (session s w (before ++ r :: after)).tables
      r.writes → response.succeeds →
      (∀ ds, r.definitions? = some ds → ∃ plan ∈ t.plans.rows, plan.beats = ds ∧
        response.shows plan.toJson ∧
        StoryPlanRevision.reader (.ofJson plan.toJson) = .ok ⟨plan.name, plan.description, ds⟩) ∧
      ∀ bs, r.content? = some bs → ∃ sheet ∈ t.sheets.rows, sheet.content = bs ∧
        response.shows sheet.toJson ∧
        ContentInput.reader (.ofJson sheet.toJson) = .ok ⟨bs⟩ := by
  have hds : Survives BeatDefinition.readList BeatDefinition.writeList :=
    BeatDefinition.survives.items
  have hbs : Survives Beat.readList Beat.writeList := Beat.survives.items
  refine ⟨fun ds => ⟨hds.decode ds, hds.reads ds⟩, fun bs => ⟨hbs.decode bs, hbs.reads bs⟩,
    fun j ds => ?_, fun j => ?_, fun text => ?_, fun d ms ms' hms => ?_,
      fun s w before after r => ?_⟩
  · simp only [BeatDefinition.readList, items_eq_ok, BeatDefinition.reader_eq_ok]
  · cases BeatDefinition.readList (.ofJson j) with
    | error fault => rfl
    | ok ds => exact hds.reads ds
  · cases decode BeatDefinition.readList text with
    | error fault => rfl
    | ok ds => exact hds.decode ds
  · rintro (h | -)
    exact .obj (h.of_perm hms)
  · intro response t hr hsucceeds
    obtain ⟨t', e, hfulfils, hshows, hlater⟩ := Session.stored_stays before after hr hsucceeds
    constructor
    · intro ds hbrings
      obtain ⟨plan, hplan, hjson, rfl⟩ := hfulfils.definitions hbrings
      exact ⟨plan, hlater.plans.mem hplan, rfl, hjson ▸ hshows, plan.reads_toJson⟩
    · intro bs hbrings
      obtain ⟨sheet, hsheet, hjson, rfl⟩ := hfulfils.content hbrings
      exact ⟨sheet, hlater.sheets.mem hsheet, rfl, hjson ▸ hshows, sheet.reads_toJson⟩

-- an array that ends behind the name, and an object with a foreign member and an empty bound
example : decode BeatDefinition.readList
    "[[\"a\",\"A\"], \x7b\"name\":\"B\",\"x\":1.5,\"key\":\"b\",\"max_scenes\":null\x7d]" =
      .ok [{ key := "a", name := "A" }, { key := "b", name := "B" }] := by
  decide +kernel

end Storyline

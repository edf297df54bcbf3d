import Storyline.Proofs.Session

/-!
# What has been shown

The rows of the tables are those that the callers have been shown as stored, in the same order: each
success tells of one row, and no other request leaves a row behind.

* `Http.Response.data?`, `Json.member?`: what a response shows;
* `Listing`: rows of one kind, what an addition adds to them, and what an exchange shows of them;
* `Listing.Lawful.session`: the rows of a session are what its exchanges have shown;
* `loglinesBy`, `sheetsFor`, `iterationsUnder`: the loglines of a user, the sheets of a logline, and
  the iterations of a story plan.
-/

namespace Storyline

open Http

/-! ## Data -/

namespace Json

/-- The value of a member of an object. -/
def member? (name : String) : Json → Option Json
  | .obj members => (members.find? (·.1 = name)).map (·.2)
  | _ => none

/-- The whole number in a member of an object. -/
def int? (name : String) (data : Json) : Option Int :=
  match data.member? name with
  | some (.int n) => some n
  | _ => none

/-- The text in a member of an object. -/
def text? (name : String) (data : Json) : Option String :=
  match data.member? name with
  | some (.str s) => some s
  | _ => none

end Json

/-- The data that a response shows. -/
def Http.Response.data? (response : Response) : Option Json :=
  match response.body with
  | .json body => body.member? "data"
  | _ => none

theorem Http.Response.data?_of_shows {response : Response} {json : Json} (h : response.shows json) :
    response.data? = some json := by
  rw [data?, h]
  simp [Json.member?]

theorem Logline.text?_slug (row : Logline) : row.toJson.text? "slug" = some row.slug := by
  simp [Json.text?, Json.member?, toJson]

theorem Logline.int?_id (row : Logline) : row.toJson.int? "id" = some row.id := by
  simp [Json.int?, Json.member?, toJson]

theorem StoryPlan.text?_slug (row : StoryPlan) : row.toJson.text? "slug" = some row.slug := by
  simp [Json.text?, Json.member?, toJson]

theorem BeatsSheet.int?_id (row : BeatsSheet) : row.toJson.int? "id" = some row.id := by
  simp [Json.int?, Json.member?, toJson]

theorem BeatsSheet.int?_loglineId (row : BeatsSheet) :
    row.toJson.int? "logline_id" = some row.loglineId := by
  simp [Json.int?, Json.member?, toJson]

instance (response : Response) : Decidable response.succeeds :=
  inferInstanceAs (Decidable (200 ≤ response.status ∧ response.status < 300))

/-! ## Listings -/

/-- Rows of one kind: those in the tables, what an addition adds to them, and what an exchange
shows. -/
structure Listing (α : Type) where
  rows : Tables → List α
  added : Addition → Option α
  shown : Exchange → Option α

/-- The rows grow by what is added, and that is what the exchange shows. -/
structure Listing.Lawful {α : Type} (l : Listing α) : Prop where
  empty : l.rows {} = []
  sameRows : ∀ {t t' : Tables}, t.SameRows t' → l.rows t' = l.rows t
  add : ∀ (t : Tables) (e : Addition), l.rows (t.add e) = l.rows t ++ (l.added e).toList
  idle : ∀ {r : Request} {response : Response}, (r.writes → ¬response.succeeds) →
    l.shown ⟨r, response⟩ = none
  stored : ∀ {r : Request} {response : Response} {t : Tables} {q : Query} {e : Addition},
    Permits r t q →
    q.Adds t e → response.succeeds → (r.Creates → response.status = 201) → response.shows e.toJson →
    l.shown ⟨r, response⟩ = l.added e

/-- **The rows of a session** are what its exchanges have shown, in their order. -/
theorem Listing.Lawful.session {α : Type} {l : Listing α} (h : l.Lawful) (s : Service)
    (w : Conditions) (requests : List Request) :
    l.rows (session s w requests).tables = (session s w requests).exchanges.filterMap l.shown := by
  refine session_induction (P := fun x => l.rows x.tables = x.exchanges.filterMap l.shown)
    h.empty ?_ requests
  intro x r ih
  rw [Session.exchanges_serve, List.filterMap_append, ← ih]
  rcases x.serve_cases r with ⟨hrows, hidle⟩ | ⟨t, q, e, ht, hp, hadds, htables, hw,
    hsucceeds, hshows⟩
  · have hnone : [(⟨r, x.answer s w r⟩ : Exchange)].filterMap l.shown = [] := by
      rw [List.filterMap_cons, h.idle hidle, List.filterMap_nil]
    rw [hnone, List.append_nil, h.sameRows hrows]
  · have hone : [(⟨r, x.answer s w r⟩ : Exchange)].filterMap l.shown = (l.added e).toList := by
      rw [List.filterMap_cons,
        h.stored hp hadds hsucceeds (fun hr => Session.created_of_succeeds hr hsucceeds)
        hshows, List.filterMap_nil]
      cases l.added e <;> rfl
    rw [hone, htables, h.add, h.sameRows ht]

theorem Http.Response.succeeds_of_created {response : Response} (h : response.status = 201) :
    response.succeeds := by
  unfold succeeds
  omega

/-! ## Loglines -/

/-- The data of a response with status 201 to a user's `POST` of a logline. -/
def Exchange.logline? (user : Int) (e : Exchange) : Option Json :=
  if e.request.method = .post ∧ Place.ofTarget? e.request.target = some .loglines ∧
      callerOf e.request = .ok user ∧ e.response.status = 201 then e.response.data?
  else none

/-- The loglines of a user. -/
def loglinesBy (user : Int) : Listing Json where
  rows t := (t.loglines.rows.filter (·.userId = user)).map Logline.toJson
  added
    | .logline row => if row.userId = user then some row.toJson else none
    | _ => none
  shown := Exchange.logline? user

theorem lawful_loglinesBy (user : Int) : (loglinesBy user).Lawful where
  empty := rfl
  sameRows h := by
    simp only [loglinesBy, h.loglines.rows]
  add t e := by
    cases e with
    | logline row =>
      by_cases huser : row.userId = user <;> simp [loglinesBy, Tables.add, Table.append, huser]
    | _ => exact (List.append_nil _).symm
  idle hidle := by
    refine if_neg ?_
    rintro ⟨hmethod, -, -, hstatus⟩
    exact hidle (.inl hmethod) (Response.succeeds_of_created hstatus)
  stored := by
    intro r response t q e hp hadds hsucceeds hcreated hshows
    have hdata := Response.data?_of_shows hshows
    cases hp with
    | @logline user' input wanted d hmethod hplace huser hinput haccept hd =>
      cases hadds with
      | logline now hnew =>
        have howner : d.userId = user' := by
          obtain ⟨-, slug, -, rfl⟩ := Loglines.accept_ok haccept
          rcases hd with rfl | ⟨n, -, rfl⟩ <;> rfl
        simp [loglinesBy, Exchange.logline?, hmethod, hplace, huser, hcreated (.inl hmethod),
          hdata, howner, Addition.toJson]
    | plan hmethod hplace =>
      cases hadds
      simp [loglinesBy, Exchange.logline?, hplace]
    | iteration hmethod =>
      cases hadds
      simp [loglinesBy, Exchange.logline?, hmethod]
    | sheet hmethod hplace =>
      cases hadds
      simp [loglinesBy, Exchange.logline?, hplace]
    | renewal hmethod =>
      cases hadds
      simp [loglinesBy, Exchange.logline?, hmethod]

/-! ## Sheets -/

/-- The data of a response with status 201 to a `POST` of a sheet or to a `PUT` on one, where it is
a sheet for the logline. -/
def Exchange.sheet? (logline : Int) (e : Exchange) : Option Json :=
  match e.request.method, Place.ofTarget? e.request.target with
  | .post, some .sheets | .put, some (.sheet _) =>
    if e.response.status = 201 then e.response.data?.filter fun data =>
      data.int? "logline_id" = some logline
    else none
  | _, _ => none

/-- The sheets of a logline. -/
def sheetsFor (logline : Int) : Listing Json where
  rows t := (t.sheets.rows.filter (·.loglineId = logline)).map BeatsSheet.toJson
  added
    | .sheet row => if row.loglineId = logline then some row.toJson else none
    | _ => none
  shown := Exchange.sheet? logline

theorem lawful_sheetsFor (logline : Int) : (sheetsFor logline).Lawful where
  empty := rfl
  sameRows h := by
    simp only [sheetsFor, h.sheets.rows]
  add t e := by
    cases e with
    | sheet row =>
      by_cases hid : row.loglineId = logline <;> simp [sheetsFor, Tables.add, Table.append, hid]
    | _ => exact (List.append_nil _).symm
  idle {r response} hidle := by
    have hnot : r.writes → response.status ≠ 201 :=
      fun hw hstatus => hidle hw (Response.succeeds_of_created hstatus)
    simp only [sheetsFor, Exchange.sheet?]
    split
    · next hmethod hplace => exact if_neg (hnot (.inl hmethod))
    · next hmethod hplace => exact if_neg (hnot (.inr hmethod))
    · rfl
  stored := by
    intro r response t q e hp hadds hsucceeds hcreated hshows
    have hdata := Response.data?_of_shows hshows
    cases hp with
    | sheet hmethod hplace =>
      cases hadds
      simp [sheetsFor, Exchange.sheet?, hmethod, hplace, hcreated (.inl hmethod), hdata,
        Addition.toJson, Option.filter_some, BeatsSheet.int?_loglineId]
    | renewal hmethod hplace =>
      cases hadds
      simp [sheetsFor, Exchange.sheet?, hmethod, hplace,
        hcreated (.inr ⟨hmethod, _, hplace⟩), hdata, Addition.toJson, Option.filter_some,
        BeatsSheet.int?_loglineId]
    | logline hmethod hplace =>
      cases hadds
      simp [sheetsFor, Exchange.sheet?, hmethod, hplace]
    | plan hmethod hplace =>
      cases hadds
      simp [sheetsFor, Exchange.sheet?, hmethod, hplace]
    | iteration hmethod hplace =>
      cases hadds
      simp [sheetsFor, Exchange.sheet?, hmethod, hplace]

/-! ## Iterations -/

/-- The data of a successful response to a `POST` of a story plan that was given the slug, or to a
`PUT` on the slug. -/
def Exchange.iteration? (slug : String) (e : Exchange) : Option Json :=
  if e.response.succeeds then
    match e.request.method, Place.ofTarget? e.request.target with
    | .post, some .plans => e.response.data?.filter fun data => data.text? "slug" = some slug
    | .put, some (.plan segment) => if slugOf segment = .ok slug then e.response.data? else none
    | _, _ => none
  else none

/-- The iterations of a story plan. -/
def iterationsUnder (slug : String) : Listing Json where
  rows t := (t.plans.rows.filter (·.slug = slug)).map StoryPlan.toJson
  added
    | .plan _ row | .iteration row => if row.slug = slug then some row.toJson else none
    | _ => none
  shown := Exchange.iteration? slug

theorem lawful_iterationsUnder (slug : String) : (iterationsUnder slug).Lawful where
  empty := rfl
  sameRows h := by
    simp only [iterationsUnder, h.plans.rows]
  add t e := by
    cases e with
    | plan reservation row =>
      by_cases hslug : row.slug = slug <;> simp [iterationsUnder, Tables.add, Table.append, hslug]
    | iteration row =>
      by_cases hslug : row.slug = slug <;> simp [iterationsUnder, Tables.add, Table.append, hslug]
    | _ => exact (List.append_nil _).symm
  idle {r response} hidle := by
    simp only [iterationsUnder, Exchange.iteration?]
    split
    · next hsucceeds =>
      split
      · next hmethod hplace => exact absurd hsucceeds (hidle (.inl hmethod))
      · next hmethod hplace => exact absurd hsucceeds (hidle (.inr hmethod))
      · rfl
    · rfl
  stored := by
    intro r response t q e hp hadds hsucceeds hcreated hshows
    have hdata := Response.data?_of_shows hshows
    cases hp with
    | plan hmethod hplace =>
      cases hadds
      simp [iterationsUnder, Exchange.iteration?, hsucceeds, hmethod, hplace, hdata,
        Addition.toJson, Option.filter_some, StoryPlan.text?_slug]
    | iteration hmethod hplace huser hslug =>
      cases hadds
      simp [iterationsUnder, Exchange.iteration?, hsucceeds, hmethod, hplace, hslug, hdata,
        Addition.toJson]
    | logline hmethod hplace =>
      cases hadds
      simp [iterationsUnder, Exchange.iteration?, hmethod, hplace]
    | sheet hmethod hplace =>
      cases hadds
      simp [iterationsUnder, Exchange.iteration?, hmethod, hplace]
    | renewal hmethod hplace =>
      cases hadds
      simp [iterationsUnder, Exchange.iteration?, hmethod, hplace]

end Storyline

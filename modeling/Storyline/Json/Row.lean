import Storyline.Json.Value
import Storyline.Plan
import Storyline.Store.Row

/-!
# Rows and bodies in JSON

How beats, rows and the bodies of requests are read and written.
-/

/-! ## Beats in JSON

* `BeatDefinition.reader`, `BeatDefinition.toJson`: a definition, whose scene bounds are written
  only where they are set;
* `Beat.reader`, `Beat.toJson`.
-/

namespace Storyline

open Json

/-- Read a definition. -/
def BeatDefinition.reader : Reader BeatDefinition := fun d =>
  (Record.read (.required "key" Reader.text <| .required "name" Reader.text <|
    .defaulted "key_points" (Reader.items Reader.text) [] <|
    .defaulted "purpose" Reader.text "" <|
    .defaulted "min_scenes" (Reader.nullable Reader.uint32) none <|
    .defaulted "max_scenes" (Reader.nullable Reader.uint32) none .done) d).map
    fun (key, name, keyPoints, purpose, minScenes, maxScenes, ()) =>
      { key, name, keyPoints, purpose, minScenes, maxScenes }

/-- A scene bound, if it is set. -/
def sceneBound (name : String) : Option UInt32 → List (String × Json)
  | none => []
  | some n => [(name, .int n.toNat)]

/-- Write a definition. -/
def BeatDefinition.toJson (d : BeatDefinition) : Json :=
  .obj ([("key", .str d.key), ("name", .str d.name), ("key_points", .arr (d.keyPoints.map .str)),
    ("purpose", .str d.purpose)] ++ sceneBound "min_scenes" d.minScenes ++
    sceneBound "max_scenes" d.maxScenes)

/-- Read a beat. -/
def Beat.reader : Reader Beat := fun d =>
  (Record.read (.required "key" Reader.text <| .required "title" Reader.text <|
    .required "content" Reader.text .done) d).map
    fun (key, title, content, ()) => { key, title, content }

/-- Write a beat. -/
def Beat.toJson (b : Beat) : Json :=
  .obj [("key", .str b.key), ("title", .str b.title), ("content", .str b.content)]

/-! ## Rows in JSON

* `NewLogline.reader`, `NewStoryPlan.reader`, `StoryPlanRevision.reader`, `NewBeatsSheet.reader`:
  rows to be stored;
* `Logline.toJson`, `StoryPlan.toJson`, `BeatsSheet.toJson`: stored rows.
-/

/-- Read a logline to be stored. -/
def NewLogline.reader : Reader NewLogline := fun d =>
  (Record.read (.required "user_id" Reader.int64 <| .required "slug" Reader.text <|
    .required "name" Reader.text <| .required "content" Reader.text .done) d).map
    fun (userId, slug, name, content, ()) => { userId, slug, name, content }

/-- Read a story plan to be stored. -/
def NewStoryPlan.reader : Reader NewStoryPlan := fun d =>
  (Record.read (.required "slug" Reader.text <| .required "name" Reader.text <|
    .optional "description" Reader.text <|
    .required "beats" (Reader.items BeatDefinition.reader) .done) d).map
    fun (slug, name, description, beats, ()) => { slug, name, description, beats }

/-- Read a further iteration of a story plan. -/
def StoryPlanRevision.reader : Reader StoryPlanRevision := fun d =>
  (Record.read (.required "name" Reader.text <| .optional "description" Reader.text <|
    .required "beats" (Reader.items BeatDefinition.reader) .done) d).map
    fun (name, description, beats, ()) => { name, description, beats }

/-- Read a beats sheet to be stored. -/
def NewBeatsSheet.reader : Reader NewBeatsSheet := fun d =>
  (Record.read (.required "logline_id" Reader.int64 <| .required "story_plan_id" Reader.int64 <|
    .required "content" (Reader.items Beat.reader) .done) d).map
    fun (loglineId, storyPlanId, content, ()) => { loglineId, storyPlanId, content }

/-- Write a logline. -/
def Logline.toJson (row : Logline) : Json :=
  .obj [("id", .int row.id), ("user_id", .int row.userId), ("slug", .str row.slug),
    ("name", .str row.name), ("content", .str row.content),
    ("created_at", .str (Timestamp.render row.createdAt))]

/-- A text that may be missing. -/
def optionalText : Option String → Json
  | none => .null
  | some s => .str s

/-- Write an iteration of a story plan. -/
def StoryPlan.toJson (row : StoryPlan) : Json :=
  .obj [("id", .int row.id), ("slug", .str row.slug), ("name", .str row.name),
    ("description", optionalText row.description),
    ("beats", .arr (row.beats.map BeatDefinition.toJson)),
    ("created_at", .str (Timestamp.render row.createdAt))]

/-- Write a beats sheet. -/
def BeatsSheet.toJson (row : BeatsSheet) : Json :=
  .obj [("id", .int row.id), ("logline_id", .int row.loglineId),
    ("story_plan_id", .int row.storyPlanId), ("content", .arr (row.content.map Beat.toJson)),
    ("created_at", .str (Timestamp.render row.createdAt))]

/-! ## Bodies of requests

What a caller writes about a row that is to be stored. The slug of a logline or a plan may be left
to the service; a revision is written as it is stored (`StoryPlanRevision.reader`).

* `LoglineInput`, `StoryPlanInput`, `BeatsSheetInput`, `ContentInput`, each with its reader.
-/

/-- A logline to be stored for the caller. -/
structure LoglineInput where
  slug : Option String
  name : String
  content : String
  deriving DecidableEq, Repr

/-- A story plan to be stored. -/
structure StoryPlanInput where
  slug : Option String
  name : String
  description : Option String
  beats : List BeatDefinition
  deriving DecidableEq, Repr

/-- Beats for a logline, after the current iteration of a story plan. -/
structure BeatsSheetInput where
  loglineSlug : String
  storyPlanSlug : String
  content : List Beat
  deriving DecidableEq, Repr

/-- Further beats for the logline and the iteration of a sheet. -/
structure ContentInput where
  content : List Beat
  deriving DecidableEq, Repr

/-- Read a logline. -/
def LoglineInput.reader : Reader LoglineInput := fun d =>
  (Record.read (.optional "slug" Reader.text <| .required "name" Reader.text <|
    .required "content" Reader.text .done) d).map
    fun (slug, name, content, ()) => { slug, name, content }

/-- Read a story plan. -/
def StoryPlanInput.reader : Reader StoryPlanInput := fun d =>
  (Record.read (.optional "slug" Reader.text <| .required "name" Reader.text <|
    .optional "description" Reader.text <|
    .required "beats" (Reader.items BeatDefinition.reader) .done) d).map
    fun (slug, name, description, beats, ()) => { slug, name, description, beats }

/-- Read a beats sheet. -/
def BeatsSheetInput.reader : Reader BeatsSheetInput := fun d =>
  (Record.read (.required "logline_slug" Reader.text <| .required "story_plan_slug" Reader.text <|
    .required "content" (Reader.items Beat.reader) .done) d).map
    fun (loglineSlug, storyPlanSlug, content, ()) => { loglineSlug, storyPlanSlug, content }

/-- Read further beats. -/
def ContentInput.reader : Reader ContentInput := fun d =>
  (Record.read (.required "content" (Reader.items Beat.reader) .done) d).map
    fun (content, ()) => { content }

end Storyline

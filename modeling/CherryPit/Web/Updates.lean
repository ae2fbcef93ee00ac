import CherryPit.Data.SerdeJson
import CherryPit.Storage.Signature
import CherryPit.Web.LiveRuns
import Mathlib.Data.Set.List

/-!
# The texts of the live updates

Port of `PageUpdateEvent` (`cherry-pit-web/src/serve/state.rs`): the text that sessions send for an
update is made once, from the pages, the timestamp and metadata of the caller. The metadata may be
anything and may use the names of the other members, which then win.

`Notice.read` is a client, which has nothing but the texts: it tells them apart by their `type` and
takes from an update what it says. In every run it learns the updates that the server was asked to
publish (`clients_informed`): what comes over the wire is the feed that `Feed.Marks` describes.
-/

namespace CherryPit.Web.Serve

open Conc Threads
open Json (Text)
open Storage (NumberFormat)

variable {N : Type} {F : NumberFormat N} {policy : WebSocketOriginPolicy} {g g' : Surface}
  {p p' : Pc} {a : Event} {as : List Event} {s s' : Live} {tr : Trace}
  {now capacity maxRequests maxConnections : Nat}

/-! ## Making an update -/

/-- What `with_metadata` is given. -/
structure Update (N : Type) where
  pages : List String
  metadata : SerdeJson.Map N
  timestamp : String

/-- The map that `with_metadata` prints. -/
def Update.payload (u : Update N) : SerdeJson.Map N :=
  ((u.metadata.insert "type" (.str "update")).insert "pages" (.arr (u.pages.map .str))).insert
    "timestamp" (.str u.timestamp)

/-- Rust `with_metadata`; sessions read nothing but the text. -/
def PageUpdateEvent.withMetadata (F : NumberFormat N) (u : Update N) : PageUpdateEvent :=
  ⟨String.ofList (SerdeJson.toText F.toString (.obj u.payload.members))⟩

/-- Rust `new`. -/
def PageUpdateEvent.new (F : NumberFormat N) (pages : List String) (timestamp : String) :
    PageUpdateEvent :=
  .withMetadata F ⟨pages, .new, timestamp⟩

/-! ## Reading it -/

/-- What a client is told. -/
inductive Notice where
  | connected
  | reload
  | update (pages : List String) (timestamp : String) (metadata : String → Option (Json Text))

/-- The members that are not metadata. -/
def reserved : List String := ["type", "pages", "timestamp"]

/-- The strings of an array. -/
def strings : Json Text → Option (List String)
  | .arr xs => xs.mapM fun
    | .str page => some page
    | _ => none
  | _ => none

/-- What a client makes of an update. -/
def Notice.ofUpdate (ms : List (String × Json Text)) : Option Notice := do
  let pages ← (← ms.lookup "pages") |> strings
  let .str timestamp ← ms.lookup "timestamp" | none
  some (.update pages timestamp fun k => if k ∈ reserved then none else ms.lookup k)

/-- What a client makes of an object. -/
def Notice.ofMembers (ms : List (String × Json Text)) : Option Notice :=
  match ms.lookup "type" with
  | some (.str "connected") => some .connected
  | some (.str "reload") => some .reload
  | some (.str "update") => ofUpdate ms
  | _ => none

/-- What a client makes of a text. -/
def Notice.ofText (text : Text) : Option Notice :=
  match Json.parse text with
  | some (.obj ms) => ofMembers ms
  | _ => none

/-- What a client makes of a message. -/
def Notice.read : Message → Option Notice
  | .text payload => ofText payload.toList
  | _ => none

/-- What a client should make of an update. -/
def Update.notice (F : NumberFormat N) (u : Update N) : Notice :=
  .update u.pages u.timestamp fun k =>
    if k ∈ reserved then none else (u.metadata.get k).map (Json.map F.toString)

lemma read_connected : Notice.read connectedFrame = some .connected := rfl

lemma read_reload : Notice.read Frame.reload.message = some .reload := rfl

lemma strings_pages (pages : List String) : strings (.arr (pages.map .str)) = some pages := by
  rw [strings]
  induction pages with
  | nil => rfl
  | cons page pages ih => simp [ih]

/-- The members of the text, as a reader has them. -/
def Update.members (F : NumberFormat N) (u : Update N) : List (String × Json Text) :=
  Json.mapMembers (Json.map F.toString) u.payload.members

lemma lookup_members (u : Update N) (k : String) :
    (u.members F).lookup k =
      if k = "timestamp" then some (.str u.timestamp)
      else if k = "pages" then some (.arr (u.pages.map .str))
      else if k = "type" then some (.str "update")
      else (u.metadata.get k).map (Json.map F.toString) := by
  have look : (u.members F).lookup k = (u.payload.get k).map (Json.map F.toString) :=
    SerdeJson.lookup_mapMembers ..
  rw [look, Update.payload, SerdeJson.Map.get_insert, SerdeJson.Map.get_insert,
    SerdeJson.Map.get_insert]
  split_ifs <;> simp

/-- The names of the server win over those in the metadata. -/
lemma ofMembers_members (u : Update N) : Notice.ofMembers (u.members F) = some (u.notice F) := by
  have type : (u.members F).lookup "type" = some (.str "update") := lookup_members ..
  have pages : (u.members F).lookup "pages" = some (.arr (u.pages.map .str)) := lookup_members ..
  have timestamp : (u.members F).lookup "timestamp" = some (.str u.timestamp) := lookup_members ..
  have metadata (k : String) : (if k ∈ reserved then none else (u.members F).lookup k) =
      if k ∈ reserved then none else (u.metadata.get k).map (Json.map F.toString) := by
    refine ite_congr rfl (fun _ => rfl) fun other => ?_
    simp only [reserved, List.mem_cons, List.not_mem_nil, or_false, not_or] at other
    rw [lookup_members, if_neg other.2.2, if_neg other.2.1, if_neg other.1]
  simp only [Notice.ofMembers, type, Notice.ofUpdate, pages, timestamp, Option.bind_eq_bind,
    Option.bind_some, strings_pages, metadata, Update.notice]

/-- A client takes from the text of an update what the update was made of. -/
lemma read_update (u : Update N) :
    Notice.read (Frame.update (.withMetadata F u)).message = some (u.notice F) := by
  rw [← ofMembers_members]
  simp only [Frame.message, PageUpdateEvent.withMetadata, Notice.read, Notice.ofText,
    String.toList_ofList, SerdeJson.parse_toText F.valid, Json.map_obj, Update.members]

/-! ## What a client learns -/

/-- What a client can read of an event. Control frames stay with the transport. -/
def Event.texts : Event → List Message
  | .session (.greeted true) => [connectedFrame]
  | .session (.sent .ping _) => []
  | .session (.sent frame _) => [frame.message]
  | _ => []

/-- What a client could read. -/
def texts (as : List Event) : List Message := as.flatMap Event.texts

/-- The message that shows an update or marks a loss. -/
def message : Option PageUpdateEvent → Message
  | some event => (Frame.update event).message
  | none => Frame.reload.message

@[simp]
lemma texts_snoc : texts (as ++ [a]) = texts as ++ a.texts := by simp [texts]

lemma sent_texts (frame : Frame) (now : Nat) :
    (Event.session (.sent frame now)).texts = frame.marks.map message := by
  cases frame <;> rfl

/-- A client could read nothing yet. -/
def Untold (as : List Event) : Prop := texts as = [] ∧ shown as = []

/-- A client could read the greeting, and then what its session has shown. -/
def Told (as : List Event) : Prop := texts as = connectedFrame :: (shown as).map message

lemma Untold.keep (h : Untold as) (texts : a.texts = []) (marks : a.marks = []) :
    Untold (as ++ [a]) := by
  simp [Untold, h.1, h.2, texts, marks]

lemma Untold.greeted (h : Untold as) : Told (as ++ [.session (.greeted true)]) := by
  simp [Told, h.1, h.2, Event.texts, Event.marks]

lemma Told.keep (h : Told as) (same : a.texts = a.marks.map message) : Told (as ++ [a]) := by
  rw [Told] at h
  simp [Told, h, same]

/-- The session has greeted its client. -/
def Session.greeted : Session → Bool
  | .subscribe | .greet _ => false
  | _ => true

def Pc.Tells (as : List Event) : Pc → Prop
  | .session q => if q.greeted then Told as else Untold as
  | .gone => Untold as ∨ Told as
  | _ => Untold as

lemma Pc.Tells.gone (h : p.Tells as) : Pc.gone.Tells as := by
  cases p with
  | session q =>
    simp only [Pc.Tells] at h
    split at h
    · exact .inr h
    · exact .inl h
  | gone => exact h
  | _ => exact .inl h

lemma afterReceive_greeted (l : Loop) (msg : Option (Except Unit Message)) :
    (l.afterReceive msg).greeted = true := by
  unfold Loop.afterReceive
  split <;> rfl

lemma afterRecv_greeted (l : Loop) (r : Received PageUpdateEvent) :
    (l.afterRecv r).greeted = true := by
  cases r <;> rfl

lemma afterTick_greeted (l : Loop) : l.afterTick.greeted = true := by
  unfold Loop.afterTick
  split <;> rfl

lemma SessionLocal.tells {q : Session} {b : SessionEvent} {q' : Option Session}
    (st : SessionLocal g q b q') (h : (Pc.session q).Tells as) :
    (q'.elim Pc.gone Pc.session).Tells (as ++ [.session b]) := by
  have told {q : Session} (greeted : q.greeted = true) (h : Told as)
      (same : (Event.session b).texts = (Event.session b).marks.map message) :
      (Pc.session q).Tells (as ++ [.session b]) := by
    rw [Pc.Tells, if_pos greeted]
    exact h.keep same
  cases st with
  | subscribed => exact Untold.keep h rfl rfl
  | greeted => exact Untold.greeted h
  | unreachable => exact .inl (Untold.keep h rfl rfl)
  | interval | firstTick | armed | timedOut | failed => exact told rfl h rfl
  | received => exact told (afterReceive_greeted ..) h rfl
  | recv => exact told (afterRecv_greeted ..) h rfl
  | tick => exact told (afterTick_greeted _) h rfl
  | sent => exact told rfl h (sent_texts ..)
  | closed => exact .inr (Told.keep h rfl)

lemma Local.tells (st : Local policy g p a g' p') (h : p.Tells as) : p'.Tells (as ++ [a]) := by
  cases st with
  | request k => cases k <;> exact Untold.keep h rfl rfl
  | @admitted k => cases k <;> exact Untold.keep h rfl rfl
  | session st => exact st.tells h
  | returned st => exact st.tells h
  | dropped =>
    rcases h.gone with h | h
    · exact .inl (h.keep rfl rfl)
    · exact .inr (h.keep rfl)
  | _ => exact Untold.keep h rfl rfl

lemma tells_run (run : Run (LiveStep policy) (.start now capacity maxRequests maxConnections) tr s)
    (i : Nat) : (s.pc i).Tells (eventsOf i tr) :=
  run_thread (J := fun p as => p.Tells as) (fun st h => st.tells h) (fun _ => ⟨rfl, rfl⟩)
    run i

/-- The feed holds what was published. -/
lemma published
    (run : Run (LiveStep policy) (.start now capacity maxRequests maxConnections) tr s) :
    ∀ event ∈ s.shared.log, .env (.publish event) ∈ tr := by
  refine run.snocInduction
    (motive := fun tr s => ∀ event ∈ s.shared.log, .env (.publish event) ∈ tr)
    (fun _ mem => (List.not_mem_nil mem).elim) ?_
  intro tr s l s' _ st ih event mem
  cases st with
  | act st => exact List.mem_append_left _ (ih event (st.log ▸ mem))
  | @env b _ st =>
    cases st
    cases b with
    | publish last =>
      rcases List.mem_append.mp mem with mem | mem
      · exact List.mem_append_left _ (ih event mem)
      · rw [List.mem_singleton.mp mem]
        exact List.mem_append_right _ (List.mem_singleton_self _)
    | _ => exact List.mem_append_left _ (ih event mem)

/-- What a client is told for an update that it is shown, or for a loss. -/
def told (F : NumberFormat N) : Option (Update N) → Notice
  | some u => u.notice F
  | none => .reload

lemma read_message (u : Option (Update N)) :
    Notice.read (message (u.map (.withMetadata F))) = some (told F u) := by
  cases u with
  | none => exact read_reload
  | some u => exact read_update u

/-- In every run whose updates are made by `with_metadata`, a client that has the texts and nothing
else learns what was published: once it is greeted it reads the updates from where its session
subscribed, in order and without repetition, each with the pages, the timestamp and the metadata
that it was made of, and for each stretch of updates that it lost that it should reload. -/
theorem clients_informed
    (run : Run (LiveStep policy) (.start now capacity maxRequests maxConnections) tr s)
    (made : ∀ event, .env (.publish event) ∈ tr → ∃ u, event = .withMetadata F u)
    {i start : Nat} (subscribed : .act i (.session (.subscribed start)) ∈ tr) :
    ∃ updates stop marks, s.shared.log = updates.map (PageUpdateEvent.withMetadata F) ∧
      start ≤ stop ∧ stop ≤ updates.length ∧
      Feed.Marks (Feed.slice updates start stop) marks ∧
      ((texts (eventsOf i tr) = [] ∧ marks = []) ∨
        (texts (eventsOf i tr)).map Notice.read =
          some .connected :: marks.map fun u => some (told F u)) := by
  have lift : s.shared.log ∈ Set.range (List.map (PageUpdateEvent.withMetadata F)) := by
    rw [Set.range_list_map]
    exact fun event mem => (made event (published run event mem)).imp fun u eq => eq.symm
  obtain ⟨updates, log⟩ := lift
  obtain ⟨stop, follows, -⟩ := (shows_run run i).follows (mem_positions subscribed)
  have marks := follows.marks
  rw [← log, Feed.slice_map] at marks
  obtain ⟨marks, h, same⟩ := marks.of_map
  refine ⟨updates, stop, marks, log.symm, follows.le, ?_, h, ?_⟩
  · simpa [← log] using follows.inside
  have tells : Pc.gone.Tells (eventsOf i tr) := (tells_run run i).gone
  rw [Pc.Tells, Untold, Told, same] at tells
  refine tells.imp ?_ ?_
  · rintro ⟨none, nothing⟩
    exact ⟨none, List.map_eq_nil_iff.mp nothing⟩
  · intro all
    rw [all, List.map_cons, read_connected, List.map_map, List.map_map]
    exact congrArg _ (List.map_congr_left fun u _ => read_message u)

/-- An update whose metadata would pass for a call to reload. -/
def forged : Update { t : Text // Json.IsNumber t } :=
  ⟨["index.html"], SerdeJson.Map.new.insert "type" (.str "reload"), "2026-07-11"⟩

/-- The update is read as what it is. -/
theorem clients_informed_forged : ∃ tr s, Run (LiveStep .allowAbsent) (.start 0 1 1 1) tr s ∧
    texts (eventsOf 0 tr) =
      [connectedFrame, (Frame.update (.withMetadata Storage.verbatim forged)).message] ∧
    ∃ updates stop marks,
      s.shared.log = updates.map (PageUpdateEvent.withMetadata Storage.verbatim) ∧
      0 ≤ stop ∧ stop ≤ updates.length ∧ Feed.Marks (Feed.slice updates 0 stop) marks ∧
      ((texts (eventsOf 0 tr) = [] ∧ marks = []) ∨
        (texts (eventsOf 0 tr)).map Notice.read =
          some .connected :: marks.map fun u => some (told Storage.verbatim u)) := by
  let event := PageUpdateEvent.withMetadata Storage.verbatim forged
  have shown : Run (PromptStep .allowAbsent)
      (only (small 0 [] 1 0) (.session (.selecting (waits 0))))
      [.env (.publish event), .act 0 (.session (.recv (.ok event))),
        .act 0 (.session (.sent (.update event) 0))]
      (only (small 0 [event] 1 0) (.session (.selecting (waits 1)))) :=
    .cons (only_publish event) <|
    .cons (only_act (.session (.recv (.ok (by decide) rfl) nofun))) <|
    .cons (only_act (.session .sent)) .nil
  have run := (run_to_loop.append shown).mono fun st => st.1
  refine ⟨_, _, run, rfl, clients_informed run ?_ (by simp)⟩
  intro last mem
  exact ⟨forged, by simpa using mem⟩

end CherryPit.Web.Serve

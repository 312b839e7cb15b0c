import PromptCanvas.Proofs.Prompt.Clean
import PromptCanvas.Proofs.Prompt.Freshness
import PromptCanvas.Service.Session

/-!
# The prompt that is served is that of the graph that is served

To the preview a request is a row of the events that can happen around it.  A request that changes
profiles marks the preview before it is answered, so no change of profiles is left untold between
two requests.
-/

namespace PromptCanvas

namespace AssetStore

theorem library_congr {s t : AssetStore} (h : s.subjects = t.subjects) : s.library = t.library := by
  rw [library, library, listSubjects, listSubjects, subjectRows, subjectRows, h]

theorem library_putSubject (s : AssetStore) (p : SubjectProfile) :
    (s.putSubject p).2 = .ok true ∨ (s.putSubject p).1.library = s.library := by
  unfold putSubject
  split
  · exact Or.inr rfl
  · dsimp only
    split
    · exact Or.inr (library_congr rfl)
    · exact Or.inl rfl

theorem library_deleteSubject (s : AssetStore) (id : String) :
    (s.deleteSubject id).2 = .ok true ∨ (s.deleteSubject id).1.library = s.library := by
  unfold deleteSubject
  split
  · exact Or.inr rfl
  · split
    · exact Or.inl rfl
    · exact Or.inr rfl

theorem library_putAsset (s : AssetStore) (id : Json) (image : ImageRef) (label : Json) :
    (s.putAsset id image label).1.library = s.library := by
  refine library_congr ?_
  unfold putAsset
  dsimp only
  split
  · rfl
  · split
    · rfl
    · split <;> rfl

theorem library_deleteAsset (s : AssetStore) (id : String) :
    (s.deleteAsset id).1.library = s.library := by
  refine library_congr ?_
  unfold deleteAsset
  split
  · rfl
  · split <;> rfl

end AssetStore

namespace Session

/-- What there is of a session around its preview.  Profiles that cannot be read count as none. -/
def watch (s : Session) : Watch Float where
  canvas := s.workspace.canvas
  preview := s.workspace.preview
  library := s.assets.library.toOption.getD []
  ratio := s.workspace.settings.defaultAspectRatio
  pending := false

theorem current_eq {s : Session} {library : SubjectLibrary}
    (h : s.assets.library = .ok library) :
    s.workspace.current library =
      ({ s.workspace with preview := s.watch.current.1 }, s.watch.current.2) := by
  have hlibrary : s.watch.library = library := by
    show s.assets.library.toOption.getD [] = library
    rw [h]
    rfl
  rw [Watch.current, hlibrary]
  rfl

/-- To the preview the one session becomes the other by a row of events. -/
def Reaches (s t : Session) : Prop := ∃ events, t.watch = s.watch.run events

namespace Reaches

theorem refl (s : Session) : s.Reaches s := ⟨[], rfl⟩

theorem trans {s t u : Session} (h : s.Reaches t) (h' : t.Reaches u) : s.Reaches u := by
  obtain ⟨events, he⟩ := h
  obtain ⟨more, hm⟩ := h'
  refine ⟨events ++ more, ?_⟩
  rw [hm, he, Watch.run_append]

/-- The answer to a change decides what is answered to the request, not what becomes of the
session. -/
theorem of_eq {β : Type} {s t : Session} {r : Session × β} {answer : β} (h : s.Reaches r.1)
    (hr : r = (t, answer)) : s.Reaches t := by
  rw [hr] at h
  exact h

theorem edit (s : Session) (op : Store.Operation Float) : s.Reaches (s.edit op).1 :=
  ⟨[.touch (.edit op)], rfl⟩

theorem event (s : Session) (e : Canvas.Event Float) : s.Reaches (s.event e).1 :=
  ⟨[.touch e], rfl⟩

theorem settle (s : Session) : s.Reaches s.settle := (event s .cancel).trans (event _ (.select []))

theorem loadGraph (s : Session) (fields : List (String × Json)) :
    s.Reaches (s.loadGraph fields).1 := by
  have h := (settle s).trans (edit _ (.load (.obj fields)))
  unfold Session.loadGraph
  dsimp only
  split <;> exact h

theorem resetGraph (s : Session) : s.Reaches s.resetGraph.1 := (settle s).trans (edit _ .reset)

theorem createNode (s : Session) (n : NewNode) : s.Reaches (s.createNode n).1 := by
  unfold Session.createNode
  split <;> exact of_eq (edit s _) ‹_›

theorem updateAttributes (s : Session) (id : String) (changes : List (String × Json)) :
    s.Reaches (s.updateAttributes id changes).1 := by
  unfold Session.updateAttributes
  split <;> exact of_eq (edit s _) ‹_›

theorem toggleCollapsed (s : Session) (id : String) : s.Reaches (s.toggleCollapsed id).1 := by
  unfold Session.toggleCollapsed
  split <;> exact of_eq (event s _) ‹_›

theorem setParent (s : Session) (id : String) (group : Option String) :
    s.Reaches (s.setParent id group).1 := by
  unfold Session.setParent
  split
  · exact refl s
  · split
    · exact refl s
    · split <;> exact of_eq (edit s _) ‹_›

theorem createConnected (s : Session) (id : String) (kind : Kind) :
    s.Reaches (s.createConnected id kind).1 := by
  unfold Session.createConnected
  split
  · exact refl s
  · split <;> exact of_eq (edit s _) ‹_›

theorem deleteNode (s : Session) (id : String) : s.Reaches (s.deleteNode id).1 := by
  unfold Session.deleteNode
  split
  · exact refl s
  · split <;> exact of_eq (edit s _) ‹_›

theorem deleteNodes (s : Session) (ids : List String) : s.Reaches (s.deleteNodes ids).1 := by
  unfold Session.deleteNodes
  split <;> exact of_eq (edit s _) ‹_›

theorem createEdge (s : Session) (e : NewEdge) : s.Reaches (s.createEdge e).1 :=
  edit s (.addEdge e.source e.target)

theorem deleteEdge (s : Session) (id : String) : s.Reaches (s.deleteEdge id).1 := by
  unfold Session.deleteEdge
  split <;> exact of_eq (edit s _) ‹_›

theorem compile (s : Session) : s.Reaches s.compile.1 := by
  unfold Session.compile
  split
  · exact refl s
  · rename_i library hlibrary
    have h : s.Reaches (s.withWorkspace (s.workspace.current library).1) := by
      rw [current_eq hlibrary]
      exact ⟨[.look], rfl⟩
    split <;> rename_i hr <;> rw [hr] at h <;> exact h

theorem pointerEvent (s : Session) (e : PointerEvent) : s.Reaches (s.pointerEvent e).1 := by
  unfold Session.pointerEvent
  dsimp only
  split <;> exact of_eq (event s _) ‹_›

theorem viewCommand_unsized (s : Session) (action : ViewAction) :
    s.Reaches (s.viewCommand ⟨action, none, none⟩).1 := by
  cases action with
  | zoomIn => exact event s .zoomIn
  | zoomOut => exact event s .zoomOut
  | reset => exact event s .resetView
  | resize => exact refl s

theorem viewCommand (s : Session) (c : ViewCommand) : s.Reaches (s.viewCommand c).1 := by
  obtain ⟨action, width, height⟩ := c
  cases width with
  | none => exact viewCommand_unsized s action
  | some width =>
    cases height with
    | none => exact viewCommand_unsized s action
    | some height =>
      exact (event s (.resize width height)).trans (viewCommand_unsized _ action)

/-! ### Profiles and assets -/

theorem of_library_eq {s : Session} {assets : AssetStore} (assetIds : IdSource)
    (h : assets.library = s.assets.library) :
    s.Reaches { s with assets, assetIds } := by
  refine ⟨[], ?_⟩
  show watch _ = s.watch
  rw [watch, watch, h]

theorem relibrary (s : Session) (assets : AssetStore) :
    s.Reaches { s with assets, workspace := s.workspace.markPreview } :=
  ⟨[.relibrary (assets.library.toOption.getD []), .mark], rfl⟩

theorem putSubject (s : Session) (p : SubjectProfile) : s.Reaches (s.putSubject p).1 := by
  have h := s.assets.library_putSubject p
  unfold Session.putSubject
  split <;> rename_i hr <;> rw [hr] at h
  · exact relibrary s _
  · exact of_library_eq _ (h.resolve_left nofun)
  · exact of_library_eq _ (h.resolve_left nofun)

theorem deleteSubject (s : Session) (id : String) : s.Reaches (s.deleteSubject id).1 := by
  have h := s.assets.library_deleteSubject id
  unfold Session.deleteSubject
  split <;> rename_i hr <;> rw [hr] at h
  · exact relibrary s _
  · exact of_library_eq _ (h.resolve_left nofun)
  · exact of_library_eq _ (h.resolve_left nofun)

theorem upload (s : Session) (u : Upload) : s.Reaches (s.upload u).1 := by
  unfold Session.upload
  split
  · exact refl s
  · dsimp only
    split <;> exact of_library_eq _ (s.assets.library_putAsset _ _ _)

theorem deleteAsset (s : Session) (id : String) : s.Reaches (s.deleteAsset id).1 := by
  have h := s.assets.library_deleteAsset id
  unfold Session.deleteAsset
  split <;> rename_i hr <;> rw [hr] at h <;> exact of_library_eq _ h

/-! ### Requests -/

theorem withBody {β : Type} {s : Session} {act : β → Session × Response}
    (h : ∀ v, s.Reaches (act v).1) (b : Body) (r : Record.Reading β) :
    s.Reaches (s.withBody b r act).1 := by
  unfold Session.withBody
  split
  · exact h _
  · exact refl s

theorem found {β : Type} (s : Session) (b : Except AssetStore.LookupFault (Option β))
    (write : β → Json) (missing : Response) : s.Reaches (s.found b write missing).1 := by
  unfold Session.found
  split <;> exact refl s

theorem listed {β : Type} (s : Session) (bs : Except Payload.TooDeep (List β)) (name : String)
    (write : β → Json) : s.Reaches (s.listed bs name write).1 := by
  unfold Session.listed
  split <;> exact refl s

theorem respondAt (s : Session) (route : Route) (method : String) (body : Body) :
    s.Reaches (s.respondAt route method body).1 := by
  unfold Session.respondAt
  -- the cases are those of the definition, in their order
  split
  · exact refl s
  · exact refl s
  · exact withBody (loadGraph s) _ _
  · exact resetGraph s
  · exact withBody (createNode s) _ _
  · exact withBody (deleteNodes s) _ _
  · exact deleteNode s _
  · exact withBody (updateAttributes s _) _ _
  · exact toggleCollapsed s _
  · exact withBody (setParent s _) _ _
  · exact withBody (createConnected s _) _ _
  · exact withBody (createEdge s) _ _
  · exact deleteEdge s _
  · exact compile s
  · exact refl s
  · exact withBody (pointerEvent s) _ _
  · exact withBody (viewCommand s) _ _
  · exact listed s _ _ _
  · exact found s _ _ _
  · exact withBody (putSubject s) _ _
  · exact deleteSubject s _
  · exact listed s _ _ _
  · exact withBody (upload s) _ _
  · exact found s _ _ _
  · exact deleteAsset s _
  · exact refl s

theorem respond (s : Session) (r : Request) : s.Reaches (s.respond r).1 := by
  unfold Session.respond
  split
  · exact refl s
  · exact respondAt s _ r.method r.body

theorem run (s : Session) (requests : List Request) : s.Reaches (s.run requests) := by
  induction requests generalizing s with
  | nil => exact refl s
  | cons r rest ih => exact (respond s r).trans (ih _)

end Reaches

/-! ## What is served -/

/-- The answer with a prompt that is compiled at once. -/
def compiled (library : Except Payload.TooDeep SubjectLibrary) (ratio : String) (g : Graph Float) :
    Response :=
  match library with
  | .error _ => .failed
  | .ok library =>
    match g.compile library ratio none with
    | .ok c => .ok c.toJson
    | .error _ => .failed

theorem compile_snd_eq {s : Session} (h : s.watch.Fresh) :
    s.compile.2 =
      compiled s.assets.library s.workspace.settings.defaultAspectRatio s.workspace.graph := by
  unfold Session.compile compiled
  cases hlibrary : s.assets.library with
  | error e => rfl
  | ok library =>
    have hcurrent := current_eq hlibrary
    rw [Watch.current_snd_eq h rfl] at hcurrent
    have hcompiled : s.watch.compiled =
        s.workspace.graph.compile library s.workspace.settings.defaultAspectRatio none := by
      show s.workspace.graph.compile (s.assets.library.toOption.getD []) _ none = _
      rw [hlibrary]
      rfl
    dsimp only
    rw [hcurrent, hcompiled]
    cases s.workspace.graph.compile library s.workspace.settings.defaultAspectRatio none with
    | error e => rfl
    | ok c => rfl

theorem fresh_startWith (ids assetIds : IdSource) (recognise : ImageRef.Recogniser)
    (settings : Settings) (assets : AssetStore) :
    ({ startWith ids assetIds recognise settings with assets } : Session).watch.Fresh :=
  Watch.fresh_start ⟨.startWith ids settings.metrics, .ofSize 1280 800⟩ _ _

/-- However changes of the store, changes of the profiles and readings of the preview come one after
the other, the preview gives what a new compilation of the store's graph gives, or fails with it, as
soon as it is marked for the last change of the profiles.  A prompt that it gave once is not compiled
again until the store is changed or the preview is marked.  Over requests there is no such condition:
after any of them, the prompt that is served is that of the graph that is served, with the profiles
that are stored then, wherever ids come from and whatever is taken for an image. -/
theorem preview_never_stale :
    (∀ {α : Type} [Scalar α] (c : Canvas α) (library : SubjectLibrary) (ratio : String)
        (events : List (Watch.Event α)),
      let w := (Watch.start c library ratio).run events
      (w.pending = false →
        w.current.2 = w.canvas.store.graph.compile w.library ratio none) ∧
      ∀ p, w.current.2 = .ok p → ∀ later, (w.step .look).Quiet later →
        ((w.step .look).run later).preview = w.current.1 ∧
        ((w.step .look).run later).current = (w.current.1, .ok p)) ∧
    ∀ (ids assetIds : IdSource) (recognise : ImageRef.Recogniser) (settings : Settings)
        (assets : AssetStore) (requests : List Request) (body body' : Body),
      let start : Session := { startWith ids assetIds recognise settings with assets }
      let s := start.run requests
      s.respond ⟨"GET", "/api/graph", body⟩ = (s, (Response.ok s.workspace.graph.toDocument).sent) ∧
      (s.respond ⟨"GET", "/api/compile", body'⟩).2 =
        (compiled s.assets.library settings.defaultAspectRatio s.workspace.graph).sent := by
  constructor
  · intro α _ c library ratio events w
    have hfresh : w.Fresh := (Watch.fresh_start c library ratio).run events
    have hratio : w.ratio = ratio := Watch.ratio_run _ events
    refine ⟨fun hknown => ?_, fun p hp later hquiet => ?_⟩
    · rw [Watch.current_snd_eq hfresh hknown, Watch.compiled, hratio]
    · obtain ⟨hcached, hclean⟩ := Preview.clean_of_current hp
      exact Watch.current_of_quiet hquiet hcached hclean
  · intro ids assetIds recognise settings assets requests body body' start s
    obtain ⟨events, hevents⟩ := Reaches.run start requests
    have hfresh : s.watch.Fresh := by
      rw [hevents]
      exact (fresh_startWith ids assetIds recognise settings assets).run events
    have hratio : s.workspace.settings.defaultAspectRatio = settings.defaultAspectRatio := by
      show s.watch.ratio = _
      rw [hevents, Watch.ratio_run]
      rfl
    have hgraph : Route.ofPath? "/api/graph" = some .graph := rfl
    have hcompile : Route.ofPath? "/api/compile" = some .compile := rfl
    constructor
    · unfold Session.respond
      rw [hgraph]
      rfl
    · unfold Session.respond
      rw [hcompile, ← hratio, ← compile_snd_eq hfresh]
      rfl

/-- A reading, and then another node and other profiles. -/
def rehearsal : List (Watch.Event Float) := [
  .look, .touch (.edit (.addConnected "output-1" .environmentRoot)), .relibrary [], .touch .zoomIn,
  .mark]

/-- Readings, and what the store refuses. -/
def intermission : List (Watch.Event Float) := [
  .look, .touch (.edit (.addEdge "output-1" "output-1")), .touch .cancel, .look]

open Prompt in
theorem preview_never_stale_rehearsal :
    let w := (Watch.start ⟨.startWith .counting Store.usualMetrics, .ofSize 1280 800⟩ [] "16:9").run
      rehearsal
    ∃ p, w.canvas.store.graph.compile w.library "16:9" none = .ok p ∧ w.current.2 = .ok p ∧
      ((w.step .look).run intermission).current = (w.current.1, .ok p) := by
  intro w
  have houtput : w.canvas.store.graph.output? = some (Store.freshOutput .counting) := rfl
  have htexts : passageTexts 0 (passages w.canvas.store.graph []
      (w.canvas.store.graph.feeders "output-1")) = [""] := by decide +kernel
  have hclean : sanitize (joinTexts [""]) = .ok "" := by
    rw [sanitize_eq]
    decide +kernel
  have hcompile : w.canvas.store.graph.compile w.library "16:9" none =
      w.canvas.store.graph.compileFrom [] "16:9" "output-1" := by
    unfold Graph.compile
    rw [houtput]
    rfl
  unfold Graph.compileFrom at hcompile
  dsimp only at hcompile
  rw [htexts, hclean] at hcompile
  have hquiet : (w.step .look).Quiet intermission :=
    .look (.touch (by decide +kernel) (.touch rfl (.look (.nil _))))
  obtain ⟨hpreview, -⟩ := preview_never_stale
  obtain ⟨hcurrent, hkept⟩ := hpreview ⟨.startWith .counting Store.usualMetrics, .ofSize 1280 800⟩
    [] "16:9" rehearsal
  have hgiven := (hcurrent rfl).trans hcompile
  exact ⟨_, hcompile, hgiven, (hkept _ hgiven intermission hquiet).2⟩

end Session
end PromptCanvas

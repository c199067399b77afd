import AccessLog.Proofs.Render.Calls
import AccessLog.Settings.Basic
import AccessLog.Snapshot.Answer

/-!
# What a line discloses

A snapshot holds a whole exchange, credentials and bodies included, and a format names a few parts
of it. **What the format does not name cannot be told from the line**
(`render_discloses_footprint`): two snapshots that agree in the places a program reads make the
same line of it.

A `Place` is the least part of a snapshot that is read on its own, and `Snapshot.look` is what
stands there. Which places an instruction reads is listed without a look at how it finds its answer
(`Snapshot.placesOf`). For nearly all of them the command and its selector say it alone; only a
response code depends on the snapshot, since the status of the response is read for it when no code
is stored and at no other time.

Two lists are wider than one entry. Headers are found up to case, and an identical name comes
before any other spelling, so a name reads all headers so spelled (`Dict.spelled`) and, although
the search goes through the whole dictionary, no other ones. Host and authority stand in for each
other, so each of them reads both.
-/

set_option autoImplicit false

namespace AccessLog

/-! ## Places -/

/-- The texts that belong to one side of an exchange, its headers, trailers and body aside. -/
inductive Component where
  | method
  | protocol
  | tlsCipher
  | tlsVersion
  | path
  | authority
  deriving DecidableEq, Repr

/-- A part of a snapshot that is read on its own. -/
inductive Place where
  | startTime
  | int (metric : IntMetric)
  | str (metric : StrMetric)
  | flag (f : Flag)
  | component (side : Side) (c : Component)
  | status (side : Side)
  /-- The headers with a name, up to its case. -/
  | headers (side : Side) (name : String)
  /-- The trailers of the response with a name, up to its case. -/
  | trailers (name : String)
  | body (side : Side)
  | uri (field : UriField)
  | parameter (name : String)
  | routerInfo (name : String)
  /-- The names in a chain. -/
  | names (stage : Stage)
  /-- How many names there are in a chain. -/
  | nameCount (stage : Stage)
  /-- The name of what a chain belongs to. -/
  | owner (stage : Stage)
  | property (stage : Stage) (name : String)
  deriving DecidableEq, Repr

/-- What can stand in a place. -/
@[reducible] def Place.Content : Place → Type
  | startTime => Option Time.Instant
  | int _ => Option Int
  | flag _ => Option Bool
  | status _ => Option Nat
  | headers _ _ | trailers _ => List (String × String)
  | body _ => Option Json.Value
  | names _ => List String
  | nameCount _ => Nat
  | str _ | component _ _ | uri _ | parameter _ | routerInfo _ | owner _ | property _ _ =>
    Option String

instance : (place : Place) → DecidableEq place.Content
  | .startTime | .int _ | .flag _ | .status _ | .headers _ _ | .trailers _ | .body _ | .names _
  | .nameCount _ | .str _ | .component _ _ | .uri _ | .parameter _ | .routerInfo _ | .owner _
  | .property _ _ => inferInstance

/-- The entries of a dictionary with a name, up to its case. -/
def Dict.spelled {α : Type} (d : Dict String α) (name : String) : List (String × α) :=
  d.entries.filter (Text.sameUpToCase ·.1 name)

def Message.component (m : Message) : Component → Option String
  | .method => m.method
  | .protocol => m.protocol
  | .tlsCipher => m.tlsCipher
  | .tlsVersion => m.tlsVersion
  | .path => m.path
  | .authority => m.authority

def Chains.owner (c : Chains) : Stage → Option String
  | .request => c.requestName
  | .response => c.responseName
  | .app => c.appName

/-- What stands in a place of a snapshot. -/
def Snapshot.look (s : Snapshot) : (place : Place) → place.Content
  | .startTime => s.startTime
  | .int metric => s.ints.get? metric
  | .str metric => s.strings.get? metric
  | .flag f => s.flags.get? f
  | .component side c => (s.message side).component c
  | .status side => (s.message side).status
  | .headers side name => (s.message side).headers.spelled name
  | .trailers name => s.response.trailers.spelled name
  | .body side => (s.message side).body
  | .uri field => s.uri.field? (.wellKnown field)
  | .parameter name => s.uri.query.get? name
  | .routerInfo name => s.routerInfo.get? name
  | .names stage => (s.middleware.chain stage).names
  | .nameCount stage => (s.middleware.chain stage).names.length
  | .owner stage => s.middleware.owner stage
  | .property stage name => (s.middleware.chain stage).attributes.get? name

/-! ## The places of a query -/

namespace FieldRef

/-- The places a field of a message is read from. -/
def messagePlaces (side : Side) : FieldRef HttpField → List Place
  | .wellKnown .method => [.component side .method]
  | .wellKnown .status => [.status side]
  | .wellKnown .protocol => [.component side .protocol]
  | .wellKnown .tlsCipher => [.component side .tlsCipher]
  | .wellKnown .tlsVersion => [.component side .tlsVersion]
  | .wellKnown .path => [.component side .path]
  | .wellKnown .authority | .wellKnown .host =>
    [.component side .authority, .headers side "host"]
  | .wellKnown .userAgent => [.headers side "user-agent"]
  | .wellKnown .cookie => [.headers side "cookie"]
  | .custom name => [.headers side name]

def uriPlaces : FieldRef UriField → List Place
  | .wellKnown field => [.uri field]
  | .custom name => [.parameter name]

/-- The places a property of the chains is read from, seen from a stage. -/
def chainPlaces (stage : Stage) : FieldRef MiddlewareField → List Place
  | .wellKnown .firstRequest | .wellKnown .lastRequest => [.names .request]
  | .wellKnown .firstResponse | .wellKnown .lastResponse => [.names .response]
  | .wellKnown .count => [.nameCount stage]
  | .wellKnown .requestName => [.owner .request]
  | .wellKnown .responseName => [.owner .response]
  | .wellKnown .appName => [.owner .app]
  | .custom name => [.property stage name]

end FieldRef

namespace Snapshot

/-- The places that are read for the answer to a query, both names of a selector included. -/
def placesOf (s : Snapshot) : Query → List Place
  | .startTime _ => [.startTime]
  | .int metric =>
    if metric = .responseCode ∧ s.ints.get? metric = none then [.int metric, .status .response]
    else [.int metric]
  | .str metric => [.str metric]
  | .flag f => [.flag f]
  | .header side selector => selector.refs.flatMap (FieldRef.messagePlaces side)
  | .trailer selector => selector.refs.map fun ref => .trailers ref.name
  | .body side _ => [.body side]
  | .uri selector => selector.refs.flatMap FieldRef.uriPlaces
  | .routerInfo selector => selector.refs.map fun ref => .routerInfo ref.name
  | .middleware stage selector => selector.refs.flatMap (FieldRef.chainPlaces stage)

/-- The places that are read for the line of a program. -/
def footprint (s : Snapshot) (p : Program) : List Place := p.queries.flatMap s.placesOf

/-- Two snapshots have the same in some places. -/
def Agree (s t : Snapshot) (places : List Place) : Prop :=
  ∀ place ∈ places, s.look place = t.look place

instance (s t : Snapshot) (places : List Place) : Decidable (s.Agree t places) :=
  inferInstanceAs (Decidable (∀ place ∈ places, s.look place = t.look place))

end Snapshot

/-! ## Headers up to case -/

/-- A name is looked up among the entries with that name up to case: neither the search for the
identical key nor the one up to case ever stops at another entry. -/
theorem Dict.getUpToCase?_eq_of_spelled {α : Type} {d e : Dict String α} {name : String}
    (h : d.spelled name = e.spelled name) : d.getUpToCase? name = e.getUpToCase? name := by
  have hexact : ∀ d : Dict String α,
      d.get? name = ((d.spelled name).find? (compare name ·.1 == .eq)).map (·.2) := by
    intro d
    unfold get? spelled
    rw [List.find?_filter]
    congr 2
    funext entry
    by_cases heq : compare name entry.1 = .eq
    · have hname : name = entry.1 := Std.LawfulEqCmp.eq_of_compare heq
      simp [← hname, Text.sameUpToCase]
    · simp [heq]
  have hfirst : ∀ d : Dict String α,
      d.findValue? (Text.sameUpToCase · name) = (d.spelled name).head?.map (·.2) := by
    intro d
    unfold findValue? spelled
    rw [List.head?_filter]
  unfold getUpToCase?
  rw [hexact d, hexact e, hfirst d, hfirst e, h]

/-! ## Answers -/

theorem Selector.firstMatch_congr {F α : Type} {selector : Selector F}
    {look other : FieldRef F → Option α} (h : ∀ ref ∈ selector.refs, look ref = other ref) :
    selector.firstMatch look = selector.firstMatch other := by
  obtain ⟨primary, fallback⟩ := selector
  have hprimary : look primary = other primary := h primary List.mem_cons_self
  cases fallback with
  | none => simp only [firstMatch, firstMatchM, hprimary]
  | some ref =>
    have hfallback : look ref = other ref := h ref (by simp [refs])
    simp only [firstMatch, firstMatchM, hprimary, hfallback]

namespace Snapshot

variable {s t : Snapshot}

theorem Agree.of_mem_flatMap {α : Type} {xs : List α} {places : α → List Place}
    (h : s.Agree t (xs.flatMap places)) {x : α} (hx : x ∈ xs) : s.Agree t (places x) :=
  fun place hplace => h place (List.mem_flatMap.mpr ⟨x, hx, hplace⟩)

theorem header?_eq_of_agree {side : Side} {name : String}
    (h : s.look (.headers side name) = t.look (.headers side name)) :
    (s.message side).header? name = (t.message side).header? name :=
  Dict.getUpToCase?_eq_of_spelled h

theorem messageField?_eq_of_agree {side : Side} {ref : FieldRef HttpField}
    (h : s.Agree t (ref.messagePlaces side)) :
    (s.message side).field? ref = (t.message side).field? ref := by
  cases ref with
  | custom name => exact header?_eq_of_agree (h _ List.mem_cons_self)
  | wellKnown field =>
    cases field with
    | method | protocol | tlsCipher | tlsVersion | path => exact h _ List.mem_cons_self
    | status =>
      have hstatus : (s.message side).status = (t.message side).status := h _ List.mem_cons_self
      simp only [Message.field?, hstatus]
    | userAgent | cookie => exact header?_eq_of_agree (h _ List.mem_cons_self)
    | authority | host =>
      -- each of the two prefers its own place, and both read both
      have hauthority : (s.message side).authority = (t.message side).authority :=
        h _ List.mem_cons_self
      have hhost : (s.message side).header? "host" = (t.message side).header? "host" :=
        header?_eq_of_agree (h _ (List.mem_cons_of_mem _ List.mem_cons_self))
      simp only [Message.field?, hauthority, hhost]

theorem uriField?_eq_of_agree {ref : FieldRef UriField} (h : s.Agree t ref.uriPlaces) :
    s.uri.field? ref = t.uri.field? ref := by
  cases ref with
  | wellKnown field => exact h _ List.mem_cons_self
  | custom name => exact h _ List.mem_cons_self

theorem chainField?_eq_of_agree {stage : Stage} {ref : FieldRef MiddlewareField}
    (h : s.Agree t (ref.chainPlaces stage)) :
    s.middleware.field? stage ref = t.middleware.field? stage ref := by
  cases ref with
  | custom name => exact h _ List.mem_cons_self
  | wellKnown field =>
    cases field with
    | requestName | responseName | appName => exact h _ List.mem_cons_self
    | count =>
      have hcount : (s.middleware.chain stage).names.length
          = (t.middleware.chain stage).names.length := h _ List.mem_cons_self
      simp only [Chains.field?, hcount]
    | firstRequest | lastRequest =>
      have hnames : s.middleware.request.names = t.middleware.request.names :=
        h _ List.mem_cons_self
      simp only [Chains.field?, hnames]
    | firstResponse | lastResponse =>
      have hnames : s.middleware.response.names = t.middleware.response.names :=
        h _ List.mem_cons_self
      simp only [Chains.field?, hnames]

/-- The status of the response is looked at only when no code is stored, and then it is one of the
places that are read. -/
theorem int?_eq_of_agree {metric : IntMetric} (h : s.Agree t (s.placesOf (.int metric))) :
    s.int? metric = t.int? metric := by
  have hentry : s.ints.get? metric = t.ints.get? metric := h (.int metric) (by
    simp only [placesOf]
    split <;> exact List.mem_cons_self)
  unfold int?
  rw [← hentry]
  cases hfound : s.ints.get? metric with
  | some n => rfl
  | none =>
    by_cases hcode : metric = .responseCode
    · have hstatus : s.response.status = t.response.status := h (.status .response) (by
        simp only [placesOf]
        rw [if_pos ⟨hcode, hfound⟩]
        simp)
      subst hcode
      simp only [hstatus]
    · cases metric <;> first | rfl | exact absurd rfl hcode

/-- **An answer is read from the places of its query.** -/
theorem provider_eq_of_agree {query : Query} (h : s.Agree t (s.placesOf query)) :
    t.provider query = s.provider query := by
  cases query with
  | startTime pattern =>
    have hstart : s.startTime = t.startTime := h _ List.mem_cons_self
    simp only [provider, startTimeText?, hstart]
  | int metric => exact congrArg some (int?_eq_of_agree h).symm
  | str metric => exact congrArg some (h (.str metric) List.mem_cons_self).symm
  | flag f => exact congrArg some (h (.flag f) List.mem_cons_self).symm
  | body side selector =>
    have hbody : (s.message side).body = (t.message side).body := h _ List.mem_cons_self
    simp only [provider, text?, Message.bodyField?, hbody]
  | header side selector =>
    refine congrArg some (Selector.firstMatch_congr fun ref href => ?_).symm
    exact messageField?_eq_of_agree (h.of_mem_flatMap href)
  | trailer selector =>
    refine congrArg some (Selector.firstMatch_congr fun ref href => ?_).symm
    exact Dict.getUpToCase?_eq_of_spelled (h (.trailers ref.name) (List.mem_map_of_mem href))
  | uri selector =>
    refine congrArg some (Selector.firstMatch_congr fun ref href => ?_).symm
    exact uriField?_eq_of_agree (h.of_mem_flatMap href)
  | routerInfo selector =>
    refine congrArg some (Selector.firstMatch_congr fun ref href => ?_).symm
    exact h (.routerInfo ref.name) (List.mem_map_of_mem href)
  | middleware stage selector =>
    refine congrArg some (Selector.firstMatch_congr fun ref href => ?_).symm
    exact chainField?_eq_of_agree (h.of_mem_flatMap href)

end Snapshot

/-! ## Lines -/

/-- **A line discloses the footprint of its program and nothing else.** Snapshots that agree there
make the same line, in every style and behind every line, of the program, of a record of it with any
lines and of a log; and if there is no line for one of them there is none for the other. -/
theorem render_discloses_footprint (p : Program) (s t : Snapshot)
    (h : s.Agree t (s.footprint p)) :
    (∀ line style, p.renderInto line t.provider style = p.renderInto line s.provider style) ∧
    (∀ style, p.render t.provider style = p.render s.provider style) ∧
    (∀ lines style, (Record.mk p lines).render t.provider style
      = (Record.mk p lines).render s.provider style) ∧
    (∀ style, (Log.mk p style).render t.provider = (Log.mk p style).render s.provider) := by
  have hanswers : ∀ query ∈ p.queries, t.provider query = s.provider query := fun query hquery =>
    Snapshot.provider_eq_of_agree (h.of_mem_flatMap hquery)
  have hline : ∀ line style,
      p.renderInto line t.provider style = p.renderInto line s.provider style := fun line style =>
    Program.renderInto_congr hanswers line style
  refine ⟨hline, hline "", ?_, hline ""⟩
  intro lines style
  simp only [Record.render, Record.renderInto, hline]

/-- Another token, another body, another status behind a stored code and other names in a chain
whose names are only counted leave the line as it is. -/
theorem render_hides_credentials :
    let p : Program := ⟨"", [
      ⟨.field (.header .request ⟨.custom "x-request-id", some (.wellKnown .authority)⟩), none⟩,
      ⟨.field (.int .responseCode), none⟩,
      ⟨.field (.middleware .app ⟨.wellKnown .count, none⟩), none⟩]⟩
    let headers : Dict String String := ({} : Dict String String).insert "X-Request-Id" "r1"
    let s : Snapshot := {
      ints := ({} : Dict IntMetric Int).insert .responseCode 200
      request := { headers := headers.insert "authorization" "token" }
      middleware := { app := { names := ["auth"] } } }
    let t : Snapshot := {
      ints := s.ints
      request := { headers := headers.insert "authorization" "other", body := some (.bool true) }
      response := { status := some 500 }
      middleware := { app := { names := ["gzip"] } } }
    s.Agree t (s.footprint p) ∧ s.request ≠ t.request ∧
      p.render t.provider {} = p.render s.provider {} := by
  intro p headers s t
  have hagree : s.Agree t (s.footprint p) := by decide +kernel
  have hother : s.request ≠ t.request := by decide +kernel
  exact ⟨hagree, hother, (render_discloses_footprint p s t hagree).2.1 {}⟩

end AccessLog

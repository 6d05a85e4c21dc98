import FlowGraph.Platform
import FlowGraph.Proofs.Keyed
import FlowGraph.Proofs.Node.Branch

namespace FlowGraph

theorem Scope.get?_bindAll {s : Scope} {es : List (String × Json)} (hn : (es.map (·.1)).Nodup)
    (name : String) : (s.bindAll es).get? name = (Entries.get? name es).or (s.get? name) := by
  induction es generalizing s with
  | nil => rfl
  | cons a es ih =>
    rw [List.map_cons, List.nodup_cons] at hn
    have hrest : (s.bindAll (a :: es)).get? name = ((s.bind a.1 a.2).bindAll es).get? name := rfl
    rw [hrest, ih hn.2, get?_bind, Entries.get?]
    split
    · next heq =>
      subst heq
      rw [Entries.get?_of_not_mem hn.1]
      rfl
    · rfl

namespace Leaf

variable {α β : Type} {t t' : Surroundings} {e : NodeError}

theorem bind_apply (a : Act α) (f : α → Act β) (t : Surroundings) :
    (a >>= f) t = match a t with
      | (.ok x, t') => f x t'
      | (.error e, t') => (.error e, t') := by
  change ExceptT.bindCont f (a t).1 (a t).2 = _
  rcases a t with ⟨x | x, t'⟩ <;> rfl

def Reads (a : Act α) : Prop := ∀ t, (a t).2.scope = t.scope

def Fails (a : Act α) (t : Surroundings) (Q : NodeError → Scope → Prop) : Prop :=
  ∀ e t', a t = (.error e, t') → Q e t'.scope

def Atomic (a : Act α) : Prop := ∀ t, Fails a t fun _ s => s = t.scope

namespace Reads

theorem scope_eq {a : Act α} (ha : Reads a) {r : Except NodeError α} (h : a t = (r, t')) :
    t'.scope = t.scope := by
  have hscope := ha t
  rwa [h] at hscope

theorem pure (x : α) : Reads (Pure.pure x : Act α) := fun _ => rfl

theorem throw (e : NodeError) : Reads (MonadExcept.throw e : Act α) := fun _ => rfl

theorem bind {a : Act α} {f : α → Act β} (ha : Reads a) (hf : ∀ x, Reads (f x)) :
    Reads (a >>= f) := by
  intro t
  rw [bind_apply]
  rcases hr : a t with ⟨x | x, t'⟩
  · exact ha.scope_eq hr
  · exact (hf x t').trans (ha.scope_eq hr)

theorem scopeNow : Reads scopeNow := fun _ => rfl

theorem get : Reads (MonadState.get : Act Surroundings) := fun _ => rfl

theorem outside (o : Outside) :
    Reads (modify fun t => { t with outside := o } : Act Unit) := fun _ => rfl

theorem rendered (text : String) : Reads (rendered text) := fun _ => rfl

theorem listNamed (name : String) : Reads (listNamed name) := by
  refine bind scopeNow fun s => ?_
  cases s.list name with
  | ok items => exact pure items
  | error f => exact throw _

theorem pattern (p : String) : Reads (pattern p) := by
  refine bind get fun t => ?_
  cases t.outside.compile p with
  | some c => exact pure c
  | none => exact throw _

theorem built (failed : HttpFault → NodeError) (method url : String) (headers : List KeyValue)
    (payload : String) : Reads (built failed method url headers payload) := by
  refine bind get fun t => ?_
  generalize t.outside.build method url _ _ = r
  cases r with
  | some r => exact pure r
  | none => exact throw _

end Reads

namespace Fails

variable {Q : NodeError → Scope → Prop}

theorem of_error {a : Act α} (h : a t = (.error e, t')) (hQ : Q e t'.scope) : Fails a t Q := by
  intro e' u hu
  rw [h] at hu
  cases hu
  exact hQ

theorem bind_error {a : Act α} {f : α → Act β} (h : a t = (.error e, t')) (hQ : Q e t'.scope) :
    Fails (a >>= f) t Q :=
  of_error (by rw [bind_apply, h]) hQ

theorem bind_ok {a : Act α} {f : α → Act β} {x : α} (h : a t = (.ok x, t'))
    (hf : Fails (f x) t' Q) : Fails (a >>= f) t Q := by
  intro e u hu
  rw [bind_apply, h] at hu
  exact hf e u hu

end Fails

namespace Atomic

theorem of_reads {a : Act α} (h : Reads a) : Atomic a :=
  fun _ _ _ ht => h.scope_eq ht

theorem bind {a : Act α} {f : α → Act β} (ha : Reads a) (hf : ∀ x, Atomic (f x)) :
    Atomic (a >>= f) := by
  intro t
  rcases hr : a t with ⟨x | x, t'⟩
  · exact .bind_error hr (ha.scope_eq hr)
  · exact .bind_ok hr fun e u hu => (hf x t' e u hu).trans (ha.scope_eq hr)

end Atomic

theorem assign_apply (name : String) (v : Json) (t : Surroundings) :
    assign name v t = match t.scope.set name v with
      | .ok s => (.ok (), { t with scope := s })
      | .error f => (.error (.scope f), t) := by
  have hnow : assign name v t = (do
      let s ← ofScope (t.scope.set name v)
      modify fun t => { t with scope := s } : Act Unit) t := rfl
  rw [hnow]
  cases t.scope.set name v <;> rfl

theorem assign_fails {name : String} (v : Json) (o : Outcome) :
    Fails (do
      assign name v
      return o) t fun e s => e = .scope .blankName ∧ Text.blank name = true ∧ s = t.scope := by
  have happly := assign_apply name v t
  cases hname : Text.blank name with
  | true =>
    rw [Scope.set, if_pos hname] at happly
    exact .bind_error happly ⟨rfl, rfl, rfl⟩
  | false =>
    rw [Scope.set, if_neg (by simp [hname])] at happly
    exact .bind_ok happly nofun

structure HoldsOfLeaves (P : Act Outcome → Prop) : Prop where
  reads {a : Act Outcome} (ha : Reads a) : P a
  bind {α : Type} {a : Act α} {f : α → Act Outcome} (ha : Reads a) (hf : ∀ x, P (f x)) : P (a >>= f)
  store (name : String) (v : Json) (o : Outcome) : P (do
    assign name v
    return o)

theorem condition_reads (expression : String) : Reads (condition expression) := by
  refine .bind (.rendered expression) fun text => ?_
  dsimp only
  split
  · exact .bind (.throw _) fun _ => .pure _
  · exact .pure _

namespace HoldsOfLeaves

variable {P : Act Outcome → Prop}

theorem math (hP : HoldsOfLeaves P) (expression into : String) : P (math expression into) := by
  refine hP.bind (.rendered expression) fun text => ?_
  cases Expression.evaluateNumeric text with
  | error e => exact hP.reads (.throw _)
  | ok x => exact hP.store into _ _

theorem replace (hP : HoldsOfLeaves P) (r : Replacement) : P (replace r) := by
  refine hP.bind (.rendered r.source) fun source => hP.bind (.rendered r.pattern) fun p => ?_
  refine hP.bind (.rendered r.replacement) fun replacement => hP.bind (.pattern p) fun c => ?_
  exact hP.store r.into _ _

theorem execute (hP : HoldsOfLeaves P) {k : NodeKind} (hk : ∀ c, k ≠ .api c) : P (execute k) := by
  cases k with
  | plain | interval | webhook | events => exact hP.reads (.pure _)
  | setVariable name v => exact hP.store name v _
  | text message into => exact hP.bind (.rendered message) fun _ => hP.store into _ _
  | condition expression => exact hP.reads (condition_reads expression)
  | list into l => exact hP.store into _ _
  | log message => exact hP.reads (.bind (.rendered message) fun _ => .pure _)
  | getGuid into => exact hP.bind .get fun _ => hP.bind (.outside _) fun _ => hP.store into _ _
  | math expression into => exact hP.math expression into
  | count listVariable into => exact hP.bind (.listNamed listVariable) fun _ => hP.store into _ _
  | map listVariable template into =>
    exact hP.bind (.listNamed listVariable) fun _ => hP.bind .scopeNow fun _ => hP.store into _ _
  | replace r => exact hP.replace r
  | findAll source p into =>
    refine hP.bind (.rendered source) fun source => hP.bind (.rendered p) fun p => ?_
    exact hP.bind (.pattern p) fun c => hP.store into _ _
  | api c => exact absurd rfl (hk c)
  | loop | forEach | whileHolds | subprocess | unknown => exact hP.reads (.throw _)

end HoldsOfLeaves

theorem leaves_atomic : HoldsOfLeaves Atomic where
  reads := .of_reads
  bind := .bind
  store _ v o _ e t' h := (assign_fails v o e t' h).2.2

def methodOf (c : ApiCall) : String :=
  Text.LetterCase.upperText (String.ofList (Text.trim c.method.toList))

def urlOf (c : ApiCall) (s : Scope) : String := Template.render c.url s []

def request? (c : ApiCall) (t : Surroundings) : Option Http.Request :=
  if Http.isToken (methodOf c) then
    t.outside.build (methodOf c) (urlOf c t.scope) (c.headers.map fun h => (h.key, h.value))
      (payloadBody (Template.render c.payload t.scope []))
  else none

def headNotes (reply : Http.Reply) : List (String × Json) :=
  [(statusName, .nat reply.status),
    (headersName, .object (reply.headers.map fun (k, v) => (k, .str v)))]

def lengthNotes (reply : Http.Reply) (body : ByteArray) : List (String × Json) :=
  headNotes reply ++ [(lengthName, .nat (reply.declared.getD body.size))]

def bodyNotes (reply : Http.Reply) (body : ByteArray) (v : Json) : List (String × Json) :=
  lengthNotes reply body ++ [(bodyName, v)]

/-- Why a call fails, and what is bound by then. -/
inductive CallFails (c : ApiCall) (t : Surroundings) : NodeError → List (String × Json) → Prop
  | badMethod (hmethod : Http.isToken (methodOf c) = false) (hbuild : request? c t = none) :
      CallFails c t (.http (methodOf c) (urlOf c t.scope) (.invalidMethod c.method)) []
  | notBuilt (hmethod : Http.isToken (methodOf c) = true) (hbuild : request? c t = none) :
      CallFails c t (.http (methodOf c) (urlOf c t.scope) .notBuilt) []
  | notAnswered {r : Http.Request} (hbuild : request? c t = some r)
      (hsend : (t.outside.send r).1 = none) :
      CallFails c t (.http (methodOf c) (urlOf c t.scope) .notAnswered) []
  | bodyCutShort {r : Http.Request} {reply : Http.Reply} (hbuild : request? c t = some r)
      (hsend : (t.outside.send r).1 = some reply) (hbody : reply.body = none) :
      CallFails c t (.http (methodOf c) (urlOf c t.scope) .bodyCutShort) (headNotes reply)
  | bodyNotJson {r : Http.Request} {reply : Http.Reply} {body : ByteArray}
      (hbuild : request? c t = some r) (hsend : (t.outside.send r).1 = some reply)
      (hbody : reply.body = some body) (hjson : Json.ofBytes? body = none) :
      CallFails c t (.http (methodOf c) (urlOf c t.scope) .bodyNotJson) (lengthNotes reply body)
  | blankName {r : Http.Request} {reply : Http.Reply} {body : ByteArray} {v : Json}
      (hbuild : request? c t = some r) (hsend : (t.outside.send r).1 = some reply)
      (hbody : reply.body = some body) (hjson : Json.ofBytes? body = some v)
      (hname : Text.blank c.into = true) :
      CallFails c t (.scope .blankName) (bodyNotes reply body v)

theorem built_apply (failed : HttpFault → NodeError) (method url : String)
    (headers : List KeyValue) (payload : String) (t : Surroundings) :
    built failed method url headers payload t =
      match t.outside.build method url (headers.map fun h => (h.key, h.value))
          (payloadBody payload) with
      | some r => (.ok r, t)
      | none => (.error (failed .notBuilt), t) := by
  unfold built
  rw [bind_apply]
  change (match t.outside.build _ _ _ _ with
    | some r => Pure.pure r
    | none => MonadExcept.throw (failed .notBuilt) : Act Http.Request) t = _
  cases t.outside.build method url _ _ <;> rfl

theorem exchange_apply (failed : HttpFault → NodeError) (r : Http.Request) (t : Surroundings) :
    exchange failed r t = match (t.outside.send r).1 with
      | none => (.error (failed .notAnswered), ⟨t.scope, (t.outside.send r).2⟩)
      | some reply => (.ok reply, ⟨t.scope.bindAll (headNotes reply), (t.outside.send r).2⟩) := by
  have hsent : exchange failed r t = (match (t.outside.send r).1 with
      | none => throw (failed .notAnswered)
      | some reply => do
        note statusName (.nat reply.status)
        note headersName (.object (reply.headers.map fun (k, v) => (k, .str v)))
        return reply : Act Http.Reply) ⟨t.scope, (t.outside.send r).2⟩ := rfl
  rw [hsent]
  cases (t.outside.send r).1 <;> rfl

theorem note_bind (name : String) (v : Json) (f : Unit → Act β) (t : Surroundings) :
    (note name v >>= f) t = f () { t with scope := t.scope.bind name v } := rfl

theorem bodyOf_apply (failed : HttpFault → NodeError) (reply : Http.Reply) (t : Surroundings) :
    bodyOf failed reply t = match reply.body with
      | none => (.error (failed .bodyCutShort), t)
      | some body =>
        let s := t.scope.bind lengthName (.nat (reply.declared.getD body.size))
        match Json.ofBytes? body with
        | none => (.error (failed .bodyNotJson), { t with scope := s })
        | some v => (.ok v, { t with scope := s.bind bodyName v }) := by
  unfold bodyOf
  cases reply.body with
  | none => rfl
  | some body =>
    dsimp only
    rw [note_bind]
    cases Json.ofBytes? body <;> rfl

theorem answered_fails {c : ApiCall} {r : Http.Request} {reply : Http.Reply}
    (hbuild : request? c t = some r) (hsend : (t.outside.send r).1 = some reply)
    (outside : Outside) (o : Json → Outcome) :
    Fails (do
      let v ← bodyOf (.http (methodOf c) (urlOf c t.scope)) reply
      assign c.into v
      return o v) ⟨t.scope.bindAll (headNotes reply), outside⟩
      fun e s => ∃ notes, CallFails c t e notes ∧ s = t.scope.bindAll notes := by
  have hread := bodyOf_apply (.http (methodOf c) (urlOf c t.scope)) reply
    ⟨t.scope.bindAll (headNotes reply), outside⟩
  cases hbody : reply.body with
  | none =>
    simp only [hbody] at hread
    exact .bind_error hread ⟨_, .bodyCutShort hbuild hsend hbody, rfl⟩
  | some body =>
    cases hjson : Json.ofBytes? body with
    | none =>
      simp only [hbody, hjson] at hread
      exact .bind_error hread ⟨_, .bodyNotJson hbuild hsend hbody hjson, rfl⟩
    | some v =>
      simp only [hbody, hjson] at hread
      refine .bind_ok hread fun e t' h => ?_
      obtain ⟨rfl, hname, hscope⟩ := assign_fails _ _ e t' h
      exact ⟨_, .blankName hbuild hsend hbody hjson hname, hscope⟩

theorem api_fails (c : ApiCall) (t : Surroundings) :
    Fails (api c) t fun e s => ∃ notes, CallFails c t e notes ∧ s = t.scope.bindAll notes := by
  refine .bind_ok (rendered_eq c.url t) (.bind_ok (rendered_eq c.payload t) ?_)
  dsimp only
  split
  · next hmethod =>
    have hmethod : (!Http.isToken (methodOf c)) = true := hmethod
    rw [Bool.not_eq_true'] at hmethod
    exact .bind_error rfl ⟨[], .badMethod hmethod (by simp [request?, hmethod]), rfl⟩
  · next hmethod =>
    have hmethod : ¬ (!Http.isToken (methodOf c)) = true := hmethod
    rw [Bool.not_eq_true', Bool.not_eq_false] at hmethod
    have hrequest : request? c t = t.outside.build (methodOf c) (urlOf c t.scope)
        (c.headers.map fun h => (h.key, h.value)) (payloadBody (Template.render c.payload t.scope [])) :=
      if_pos hmethod
    have hbuilt := built_apply (.http (methodOf c) (urlOf c t.scope)) (methodOf c) (urlOf c t.scope)
      c.headers (Template.render c.payload t.scope []) t
    rw [← hrequest] at hbuilt
    cases hbuild : request? c t with
    | none =>
      simp only [hbuild] at hbuilt
      exact .bind_error hbuilt ⟨[], .notBuilt hmethod hbuild, rfl⟩
    | some r =>
      simp only [hbuild] at hbuilt
      refine .bind_ok hbuilt ?_
      have hexchange := exchange_apply (.http (methodOf c) (urlOf c t.scope)) r t
      cases hsend : (t.outside.send r).1 with
      | none =>
        simp only [hsend] at hexchange
        exact .bind_error hexchange ⟨[], .notAnswered hbuild hsend, rfl⟩
      | some reply =>
        simp only [hsend] at hexchange
        exact .bind_ok hexchange (answered_fails hbuild hsend _ _)

theorem CallFails.names {c : ApiCall} {notes : List (String × Json)} (h : CallFails c t e notes) :
    notes.map (·.1) <+: [statusName, headersName, lengthName, bodyName] := by
  cases h with
  | badMethod | notBuilt | notAnswered => exact List.nil_prefix
  | bodyCutShort => exact ⟨[lengthName, bodyName], rfl⟩
  | bodyNotJson => exact ⟨[bodyName], rfl⟩
  | blankName => exact ⟨[], rfl⟩

theorem perform_failed {k : NodeKind} (h : perform k t = (.error e, t')) :
    ((∀ c, k ≠ .api c) → t'.scope = t.scope) ∧
    ∀ c, k = .api c → ∃ notes, CallFails c t e notes ∧
      notes.map (·.1) <+: [statusName, headersName, lengthName, bodyName] ∧
      ∀ name, t'.scope.get? name = (Entries.get? name notes).or (t.scope.get? name) := by
  constructor
  · intro hk
    exact leaves_atomic.execute hk t e t' h
  · rintro c rfl
    obtain ⟨notes, hfails, hscope⟩ := api_fails c t e t' h
    have hnodup : (notes.map (·.1)).Nodup := hfails.names.sublist.nodup (by decide)
    refine ⟨notes, hfails, hfails.names, fun name => ?_⟩
    rw [hscope, Scope.get?_bindAll hnodup]

namespace Sample

def call : ApiCall := ⟨"get", "http://localhost/", [], "", "answer"⟩

def surroundings : Surroundings where
  scope := .initial
  outside := Platform.outside
    (fun _ _ => some ⟨404, [("server", "x")], none, some "none".toUTF8⟩) fun _ => some 0

end Sample

open Sample (call surroundings) in
theorem perform_failed_text : ∃ t' u',
    perform (.api call) surroundings =
      (.error (.http "GET" "http://localhost/" .bodyNotJson), t') ∧
    (∃ notes, CallFails call surroundings (.http "GET" "http://localhost/" .bodyNotJson) notes ∧
      notes.map (·.1) <+: [statusName, headersName, lengthName, bodyName] ∧
      ∀ name, t'.scope.get? name = (Entries.get? name notes).or (surroundings.scope.get? name)) ∧
    (t'.scope.get? statusName, t'.scope.get? lengthName, t'.scope.get? bodyName) =
      (some (.nat 404), some (.nat 4), none) ∧
    perform (.text "x" " ") surroundings = (.error (.scope .blankName), u') ∧
    u'.scope = surroundings.scope := by
  have hcall : perform (.api call) surroundings =
      (.error (.http "GET" "http://localhost/" .bodyNotJson), _) := rfl
  have htext : perform (.text "x" " ") surroundings = (.error (.scope .blankName), _) := rfl
  exact ⟨_, _, hcall, (perform_failed hcall).2 call rfl, rfl, htext,
    (perform_failed htext).1 fun c => by rintro ⟨⟩⟩

end Leaf

end FlowGraph

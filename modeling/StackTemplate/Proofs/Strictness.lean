import Mathlib.Data.List.Basic
import Mathlib.Logic.Relation
import StackTemplate.Proofs.Eventual
import StackTemplate.Proofs.Postcondition

/-!
# No error is passed over

A value that resolves has parts that are resolved on the way, and each of them resolves by
itself: no function gives a value after a part of its argument has failed.  `Evaluates` says
which parts these are.  They are the items of lists and the entries of data, the operands of
calls, and the variables of `Fn::Sub` that the text names.

* `Intrinsic.operands`: the parts of its argument that a function resolves as they are written.
* `ensures_operand`: one function at a time, a call ends with a value only after its operands have
  been answered.
* `resolves_of_reaches`: a value resolves only if its parts do, and the parts of its parts.
-/

namespace StackTemplate

/-! ## 1. Parts that are resolved -/

/-- The parts of its argument that a function resolves as they are written: the argument, the
items of the argument, or the text of `Fn::Sub`. -/
def Intrinsic.operands : Intrinsic → Value → List Value
  | .ref, arg | .getAtt, arg | .findInMap, arg | .join, arg | .split, arg | .base64, arg
  | .condition, arg => [arg]
  | .select, arg | .equals, arg | .and, arg | .or, arg | .not, arg | .ifElse, arg =>
    arg.asList?.getD []
  | .sub, .list items => items.take 1
  | .sub, arg => [arg]
  | .getAzs, _ | .importValue, _ => []

namespace Stack

/-- **The part `u` of `v` is resolved** when `v` is.  A variable of `Fn::Sub` is if the text that
the template resolves to has a placeholder of its name. -/
inductive Evaluates (stack : Stack) : Value → Value → Prop
  | item {items : List Value} {u : Value} (hu : u ∈ items) : Evaluates stack (.list items) u
  | entry {entries : Entries} {e : String × Value} (hc : Intrinsic.ofCall? entries = none)
      (he : e ∈ entries) : Evaluates stack (.mapping entries) e.2
  | operand {entries : Entries} {f : Intrinsic} {arg u : Value}
      (hc : Intrinsic.ofCall? entries = some (f, arg)) (hu : u ∈ f.operands arg) :
      Evaluates stack (.mapping entries) u
  | bound {entries bindings : Entries} {template u : Value} {text name : String}
      (hc : Intrinsic.ofCall? entries = some (.sub, .list [template, .mapping bindings]))
      (ht : stack.Eventually (.resolve template) (.ok (.value (.string text))))
      (hn : name ∈ Placeholder.names text) (hu : bindings.lookup name = some u) :
      Evaluates stack (.mapping entries) u

/-- The parts that are resolved on the way: parts of parts, to any depth. -/
def Reaches (stack : Stack) : Value → Value → Prop := Relation.ReflTransGen stack.Evaluates

/-- The value resolves while the names in `busy` are being worked out. -/
def Resolves (stack : Stack) (busy : Set String) (v : Value) : Prop :=
  ∃ w, stack.Gives busy (stack.plan v) (.ok w)

variable {stack : Stack} {busy : Set String}

/-! ## 2. What a part of an argument must be -/

theorem resolves_of_ask {v w : Value} (h : stack.Gives busy (Plan.ask v) (.ok w)) :
    stack.Resolves busy v :=
  ⟨w, gives_ask_iff.mp h⟩

/-- A list resolves exactly if its items do. -/
theorem resolves_list_iff {items : List Value} :
    stack.Resolves busy (.list items) ↔ ∀ u ∈ items, stack.Resolves busy u := by
  constructor
  · rintro ⟨w, h⟩ u hu
    obtain ⟨results, hresults, -⟩ := gives_map_ok_iff.mp h
    obtain ⟨x, hx⟩ := gives_of_gives_mapM hresults u hu
    exact resolves_of_ask hx
  · intro h
    have hask : ∀ u ∈ items, ∃ w, stack.Gives busy (Plan.ask u) (.ok w) ∧ True := by
      intro u hu
      obtain ⟨w, hw⟩ := h u hu
      exact ⟨w, gives_ask_iff.mpr hw, trivial⟩
    obtain ⟨results, hresults, -⟩ := gives_mapM_of_gives hask
    exact ⟨.list results, gives_map_ok_iff.mpr ⟨results, hresults, rfl⟩⟩

/-- A list is given if its items are, and what is assumed of its value holds of any. -/
theorem exists_given_list {assumed : Value → Value → Prop} {items : List Value}
    (hitems : ∀ u ∈ items, ∃ w, stack.Given assumed u w) (h : ∀ w, assumed (.list items) w) :
    ∃ w, stack.Given assumed (.list items) w := by
  have hresolves : stack.Resolves ∅ (.list items) := resolves_list_iff.mpr fun u hu =>
    (hitems u hu).imp fun w hw => hw.1
  exact hresolves.imp fun w hw => ⟨hw, h w⟩

/-! ## 3. The functions

A call ends with a value only after each of its operands has been answered.  What the answers
may be is left open: `answers` is any relation between parts and their values. -/

section Functions

variable {answers : Value → Value → Prop} {names : Resource → String → Prop} {arg u : Value}

open Plan (ensures_ask_bind ensures_bind_left ensures_bind_right)

theorem ensures_callGetAtt :
    (stack.callGetAtt arg).Ensures answers names fun _ => ∃ w, answers arg w := by
  unfold callGetAtt
  split
  · exact ensures_bind_left _ (ensures_ask_bind _ _)
  · exact ensures_bind_left _ (ensures_ask_bind _ _)

/-- A join with a delimiter never asks for its argument as a whole, but it asks for both of the
argument's items. -/
theorem ensures_joinParts (hlist : ∀ items, (∀ u ∈ items, ∃ w, answers u w) →
      ∃ w, answers (.list items) w) :
    (joinParts arg).Ensures answers names fun _ => ∃ w, answers arg w := by
  unfold joinParts
  split
  · next delimiter list =>
    refine Plan.ensures_bind (Plan.ensures_ask list) fun w hw => ?_
    cases w with
    | list items =>
      have hdelimiter : (Intrinsic.join.askString .delimiter delimiter).Ensures answers names
          fun _ => ∃ w, answers delimiter w := ensures_ask_bind _ _
      refine Plan.ensures_bind hdelimiter fun text htext => Plan.ensures_pure (hlist _ ?_)
      intro u hu
      rcases List.mem_pair.mp hu with rfl | rfl
      · exact htext
      · exact ⟨_, hw⟩
    | null | boolean | number | string | mapping => exact ensures_ask_bind _ _
  · exact ensures_ask_bind _ _

theorem ensures_callSelect {items : List Value} (hu : u ∈ items) :
    (callSelect (.list items)).Ensures answers names fun _ => ∃ w, answers u w := by
  unfold callSelect
  split
  · next index list harg =>
    cases harg
    rcases List.mem_pair.mp hu with rfl | rfl
    · exact ensures_ask_bind _ _
    · refine ensures_bind_right _ fun i => ?_
      cases Intrinsic.indexOf? i with
      | none => trivial
      | some index => exact ensures_ask_bind _ _
  · trivial

theorem ensures_callEquals {items : List Value} (hu : u ∈ items) :
    (callEquals (.list items)).Ensures answers names fun _ => ∃ w, answers u w := by
  unfold callEquals
  split
  · next a b harg =>
    cases harg
    rcases List.mem_pair.mp hu with rfl | rfl
    · exact ensures_ask_bind _ _
    · exact ensures_bind_right _ fun x => ensures_ask_bind _ _
  · trivial

/-- Both operands of `Fn::And` and `Fn::Or` are asked for, whatever the first one is. -/
theorem ensures_callBoolean {f : Intrinsic} {op : Bool → Bool → Bool} {items : List Value}
    (hu : u ∈ items) :
    (callBoolean f op (.list items)).Ensures answers names fun _ => ∃ w, answers u w := by
  unfold callBoolean
  split
  · next a b harg =>
    cases harg
    rcases List.mem_pair.mp hu with rfl | rfl
    · exact ensures_bind_left _ (ensures_ask_bind _ _)
    · exact ensures_bind_right _ fun x => ensures_bind_left _ (ensures_ask_bind _ _)
  · trivial

theorem ensures_callNot {items : List Value} (hu : u ∈ items) :
    (stack.callNot (.list items)).Ensures answers names fun _ => ∃ w, answers u w := by
  unfold callNot
  split
  · next operand harg =>
    cases harg
    cases List.mem_singleton.mp hu
    cases stack.config.negation with
    | passthrough => exact (Plan.ensures_ask u).mono fun w hw => ⟨w, hw⟩
    | invert => exact ensures_bind_left _ (ensures_ask_bind _ _)
  · trivial

/-- Both branches of `Fn::If` are asked for, whichever the condition picks. -/
theorem ensures_callIf {items : List Value} (hu : u ∈ items) :
    (stack.callIf (.list items)).Ensures answers names fun _ => ∃ w, answers u w := by
  unfold callIf
  split
  · next name ifTrue ifFalse harg =>
    cases harg
    simp only [List.mem_cons, List.not_mem_nil, or_false] at hu
    rcases hu with rfl | rfl | rfl
    · exact ensures_bind_left _ (ensures_ask_bind _ _)
    · exact ensures_bind_right _ fun name => ensures_ask_bind _ _
    · refine ensures_bind_right _ fun name => ?_
      exact ensures_bind_right _ fun whenTrue => ensures_ask_bind _ _
  · trivial

/-- A text is filled in only after every name in it has got its text. -/
theorem ensures_render {p : Prop} {template name : String} {lookup : String → Plan String}
    (hn : name ∈ Placeholder.names template)
    (h : (lookup name).Ensures answers names fun _ => p) :
    (Placeholder.render template lookup).Ensures answers names fun _ => p := by
  rw [Placeholder.names, List.mem_eraseDups, Placeholder.lookups, List.mem_filterMap] at hn
  obtain ⟨piece, hpiece, hname⟩ := hn
  refine ensures_bind_left _ (Plan.ensures_mapM_of_mem hpiece ?_)
  rw [hname]
  exact h

/-- `Fn::Sub` with variables resolves its text and then what the text names. -/
theorem callSub_list (template : Value) (bindings : Entries) :
    stack.callSub (.list [template, .mapping bindings]) = (do
      let text ← Intrinsic.sub.askString .template template
      return Value.string (← Placeholder.render text (stack.placeholderText bindings))) := rfl

theorem ensures_callSub (hu : u ∈ Intrinsic.sub.operands arg) :
    (stack.callSub arg).Ensures answers names fun _ => ∃ w, answers u w := by
  unfold callSub
  split
  · cases List.mem_singleton.mp hu
    exact ensures_bind_left _ (ensures_ask_bind _ _)
  · trivial
  · next hmapping hlist =>
    have harg : Intrinsic.sub.operands arg = [arg] := by
      cases arg with
      | list items => exact absurd rfl (hlist items)
      | null | boolean | number | string | mapping => rfl
    rw [harg] at hu
    cases List.mem_singleton.mp hu
    exact ensures_bind_left _ (ensures_ask_bind _ _)

/-- A variable of `Fn::Sub` is asked for if the text that the template resolves to names it. -/
theorem ensures_bound (hgives : ∀ v w, answers v w → stack.Gives ∅ (stack.plan v) (.ok w))
    {template : Value} {bindings : Entries} {text name : String}
    (ht : stack.Gives ∅ (stack.plan template) (.ok (.string text)))
    (hn : name ∈ Placeholder.names text) (hu : bindings.lookup name = some u) :
    (stack.callSub (.list [template, .mapping bindings])).Ensures answers names
      fun _ => ∃ w, answers u w := by
  rw [callSub_list]
  refine Plan.ensures_bind (Intrinsic.sub.ensures_askString .template template) ?_
  intro text' htext
  cases (hgives _ _ htext).unique ht
  refine ensures_bind_left _ (ensures_render hn ?_)
  rw [placeholderText_eq, placeholderValue, hu]
  exact ensures_ask_bind _ _

/-- **A call ends with a value only after its operands have been answered.** -/
theorem ensures_operand (hlist : ∀ items, (∀ u ∈ items, ∃ w, answers u w) →
      ∃ w, answers (.list items) w) {f : Intrinsic} (hu : u ∈ f.operands arg) :
    (stack.call f arg).Ensures answers names fun _ => ∃ w, answers u w := by
  have hwhole (hf : f.operands arg = [arg])
      (ha : (stack.call f arg).Ensures answers names fun _ => ∃ w, answers arg w) :
      (stack.call f arg).Ensures answers names fun _ => ∃ w, answers u w := by
    rw [hf] at hu
    cases List.mem_singleton.mp hu
    exact ha
  have hitems (hf : f.operands arg = arg.asList?.getD []) :
      ∃ items, arg = .list items ∧ u ∈ items := by
    rw [hf] at hu
    cases arg with
    | list items => exact ⟨items, rfl, hu⟩
    | null | boolean | number | string | mapping => cases hu
  cases f with
  | getAtt => exact hwhole rfl stack.ensures_callGetAtt
  | join => exact hwhole rfl (ensures_bind_left _ (ensures_joinParts hlist))
  | ref | findInMap | split | base64 | condition =>
    exact hwhole rfl (ensures_bind_left _ (ensures_ask_bind _ _))
  | sub => exact stack.ensures_callSub hu
  | getAzs | importValue => trivial
  | select =>
    obtain ⟨items, rfl, hitem⟩ := hitems rfl
    exact ensures_callSelect hitem
  | equals =>
    obtain ⟨items, rfl, hitem⟩ := hitems rfl
    exact ensures_callEquals hitem
  | and | or =>
    obtain ⟨items, rfl, hitem⟩ := hitems rfl
    exact ensures_callBoolean hitem
  | not =>
    obtain ⟨items, rfl, hitem⟩ := hitems rfl
    exact ensures_callNot hitem
  | ifElse =>
    obtain ⟨items, rfl, hitem⟩ := hitems rfl
    exact ensures_callIf hitem

end Functions

/-! ## 4. Parts of parts -/

/-- **A value is resolved only after its parts have been answered**, one step down. -/
theorem ensures_evaluates {assumed : Value → Value → Prop} {names : Resource → String → Prop}
    (hlist : ∀ items, (∀ u ∈ items, ∃ w, stack.Given assumed u w) →
      ∀ w, assumed (.list items) w) {v u : Value} (hu : stack.Evaluates v u) :
    (stack.plan v).Ensures (stack.Given assumed) names fun _ => ∃ w, stack.Given assumed u w := by
  cases hu with
  | item hu =>
    refine Plan.ensures_map (Plan.ensures_mapM_of_mem hu ?_)
    exact (Plan.ensures_ask u).mono fun w hw => ⟨w, hw⟩
  | entry hc he =>
    simp only [plan, hc]
    refine Plan.ensures_map (Plan.ensures_mapM_of_mem he (Plan.ensures_map ?_))
    exact (Plan.ensures_ask _).mono fun w hw => ⟨w, hw⟩
  | operand hc hu =>
    simp only [plan, hc]
    exact ensures_operand (fun items hitems => exists_given_list hitems (hlist items hitems)) hu
  | bound hc ht hn hu =>
    simp only [plan, hc]
    exact ensures_bound (fun _ _ h => h.1) (eventually_resolve_ok_iff.mp ht) hn hu

/-- **A part that is resolved on the way resolves by itself.** -/
theorem resolves_of_evaluates {v u : Value} (h : stack.Resolves ∅ v)
    (hu : stack.Evaluates v u) : stack.Resolves ∅ u := by
  obtain ⟨w, hw⟩ := h
  obtain ⟨x, hx, -⟩ := hw.ensures stack.sustains_true (stack.honest_plan v)
    (ensures_evaluates (fun _ _ _ => trivial) hu)
  exact ⟨x, hx⟩

theorem resolves_of_reaches {v u : Value} (h : stack.Resolves ∅ v) (hu : stack.Reaches v u) :
    stack.Resolves ∅ u := by
  induction hu with
  | refl => exact h
  | tail _ hstep ih => exact resolves_of_evaluates ih hstep

/-- Two functions give no value to any argument. -/
theorem ne_of_resolves_call {entries : Entries} {f : Intrinsic} {arg : Value}
    (h : stack.Resolves busy (.mapping entries))
    (hc : Intrinsic.ofCall? entries = some (f, arg)) : f ≠ .getAzs ∧ f ≠ .importValue := by
  obtain ⟨w, h⟩ := h
  simp only [plan, hc] at h
  constructor
  · rintro rfl
    exact gives_fail_ok_iff.mp h
  · rintro rfl
    exact gives_fail_ok_iff.mp h

/-- A value that resolves, in whatever session, resolves without depth and without memory. -/
theorem resolves_of_operate {ops : List Operation} {v : Value} {answer : Answer}
    (h : (stack.operate (.resolve v) (stack.after ops .start)).1 = .ok answer) :
    stack.Resolves ∅ v := by
  obtain ⟨w, hw, -⟩ := gives_map_ok_iff.mp (stack.gives_of_operate_ok ops h)
  exact resolves_of_ask hw

/-- **No error is passed over.**  When a value resolves, after any operations, each part that is
resolved on the way resolves by itself from some limit on, and fails in a new session only by
running out of depth.  It is no call of the two functions that always fail. -/
theorem part_resolves_of_resolves (stack : Stack) (ops : List Operation) {v u : Value}
    {answer : Answer}
    (h : (stack.operate (.resolve v) (stack.after ops .start)).1 = .ok answer)
    (hu : stack.Reaches v u) :
    (∃ w, stack.Eventually (.resolve u) (.ok (.value w))) ∧
    (∀ n e, ((stack.withLimit n).operate (.resolve u) .start).1 = .error e →
      e = .depthExceeded n) ∧
    ∀ entries f arg, u = .mapping entries → Intrinsic.ofCall? entries = some (f, arg) →
      f ≠ .getAzs ∧ f ≠ .importValue := by
  have hres : stack.Resolves ∅ u := resolves_of_reaches (resolves_of_operate h) hu
  refine ⟨?_, fun n e he => ?_, ?_⟩
  · obtain ⟨w, hw⟩ := hres
    exact ⟨w, eventually_resolve_ok_iff.mpr hw⟩
  · rcases stack.operate_withLimit_cases (.resolve u) n with hd | hg
    · rw [he] at hd
      exact Except.error.inj hd
    · obtain ⟨w, hw⟩ := hres
      rw [he] at hg
      have hfail := gives_ask_iff.mp (gives_map_error_iff.mp hg)
      cases hfail.unique hw
  · rintro entries f arg rfl hc
    exact ne_of_resolves_call hres hc

/-- The second operand of an `Fn::Or` after a true one, in the branch that the condition does not
pick, in a session in which an operation has failed. -/
theorem operand_resolves_in_branch_not_taken :
    let stack := ofDocument (.mapping [("Conditions", .mapping [("Yes", .boolean true)])])
    let disjunction := Value.mapping [("Fn::Or", .list [.boolean true, .boolean false])]
    let v := Value.mapping [("Fn::If", .list [.string "Yes", .string "a", disjunction])]
    (stack.operate (.resolve v) (stack.after [.condition "No"] .start)).1 =
        .ok (.value (.string "a")) ∧
      stack.Reaches v (.boolean false) ∧
      ∃ w, stack.Eventually (.resolve (.boolean false)) (.ok (.value w)) := by
  intro stack disjunction v
  have hrun : (stack.operate (.resolve v) (stack.after [.condition "No"] .start)).1 =
      .ok (.value (.string "a")) := by rfl
  have hbranch : stack.Evaluates v disjunction :=
    .operand (f := .ifElse) rfl (by simp [Intrinsic.operands, Value.asList?])
  have hoperand : stack.Evaluates disjunction (.boolean false) :=
    .operand (f := .or) rfl (by simp [Intrinsic.operands, Value.asList?])
  have hreach : stack.Reaches v (.boolean false) := .tail (.single hbranch) hoperand
  obtain ⟨hres, -, -⟩ := stack.part_resolves_of_resolves [.condition "No"] hrun hreach
  exact ⟨hrun, hreach, hres⟩

end Stack
end StackTemplate

import PhpTaint.Proofs.Annotation.Placing
import PhpTaint.Proofs.Scopes.NamespaceTable

/-!
# Callees across files

Files that are annotated one after the other share their declarations. After the
last file a call finds the function that was declared last under the full name that
its callee text denotes where the call stands, whichever file declares it. So a call
may find a function that is declared after it, and a later declaration of a name
takes the place of an earlier one.
-/

namespace PhpTaint.Annotation

open Scopes Syntax Outcome Lexical

variable {roots : List Node} {owner : ScopeId} {outer : List ScopeId} {path around : Path}
  {catalogue : Catalogue Node} {state : Annotator} {reading : State}

/-- A run that stands in the global scope and nowhere else. -/
def Annotator.atOutset (state : Annotator) : Annotator :=
  { state with stack := [state.globalScope] }

/-- A run that goes back to the global scope is outside all namespaces again. -/
theorem Placed.restart (placed : Placed roots owner outer path catalogue state reading) :
    Placed roots owner [] [] catalogue state.atOutset (reading.within false) where
  owned := placed.owned
  catalogued := placed.catalogued
  functions := placed.functions
  records := placed.records
  top := ⟨owner, congrArg (fun scope => [scope]) placed.owned, .space [],
    placed.catalogued.global, rfl, rfl⟩

/-- Annotating a file is followed by the reading of the file. -/
theorem annotateProgram_placed {root : Node} (listed : root ∈ roots)
    (placed : Placed roots owner [] [] catalogue state.atOutset (reading.within false)) :
    Lands catalogue (annotateProgram root state) fun _ later after =>
      Placed roots owner [] [] later after (readFile reading root) := by
  have entered : (modify Annotator.atOutset : Annotating Unit) state =
    .ok ⟨⟩ state.atOutset := rfl
  apply Lands.bind_ok entered
  apply (visit_placed (Nat.le_refl _) (.file listed) placed).bind
  intro _ _ visited _ placed
  obtain ⟨here, stack, -⟩ := placed.top
  apply Lands.bind_ok (get_eq_ok.2 ⟨rfl, rfl⟩)
  rw [stack]
  apply (placed.endsProgram here).bind
  intro _ _ recorded _ placed
  exact Lands.pure placed

/-- By induction on the files: annotating them is followed by reading them. -/
theorem annotateAll_placed {files : List Node}
    (listed : forall root, root ∈ files -> root ∈ roots)
    (placed : Placed roots owner [] [] catalogue state.atOutset (reading.within false)) :
    Lands catalogue (files.mapM annotateProgram state) fun _ later after =>
      Placed roots owner [] [] later after.atOutset
        ((files.foldl readFile reading).within false) := by
  induction files generalizing catalogue state reading with
  | nil => exact Lands.pure placed
  | cons root rest inductionHypothesis =>
      rw [List.mapM_cons]
      apply (annotateProgram_placed (listed root (List.mem_cons_self ..)) placed).bind
      intro _ _ middle _ annotated
      apply (inductionHypothesis (fun other member => listed other (List.mem_cons_of_mem _ member))
        annotated.restart).bind
      intro _ _ last _ placed
      exact Lands.pure placed

/-- A run that has annotated nothing is placed beside a reading that has read
nothing. -/
theorem start_placed (roots : List Node) :
    Placed roots 0 [] [] Catalogue.start Annotator.start.atOutset
      (State.within ⟨false, []⟩ false) where
  owned := rfl
  catalogued := Catalogued.start
  functions _ _ := rfl
  records _ member := nomatch member
  top := ⟨0, rfl, .space [], rfl, rfl, rfl⟩

/-- Files that were annotated without a fault were followed by their reading. -/
theorem annotated_placed {ends : List ScopeId}
    {annotator : Annotator}
    (annotated : roots.mapM annotateProgram Annotator.start = .ok ends annotator) :
    ∃ catalogue, Placed roots annotator.globalScope [] [] catalogue annotator.atOutset
      ((readFiles roots).within false) := by
  obtain ⟨catalogue, -, placed⟩ :=
    annotateAll_placed (fun _ listed => listed) (start_placed roots) ends annotator annotated
  rw [globalScope_of_annotated annotated]
  exact ⟨catalogue, placed⟩

/-- The last segment in lower case after the others in lower case. -/
theorem map_lower_eq {segments : List String} (nonempty : segments ≠ []) :
    segments.dropLast.map Text.lower ++ [Text.lower (segments.getLastD "")] =
      segments.map Text.lower := by
  obtain ⟨before, last, rfl⟩ := (List.eq_nil_or_concat' segments).resolve_left nonempty
  simp

namespace Placed

/-- The entry that segments lead to is the function that was declared last under
them. -/
theorem entryAt_eq (placed : Placed roots owner outer path catalogue state reading)
    (around : Path) {segments : List String} (nonempty : segments ≠ []) :
    catalogue.entryAt .function around segments =
      reading.last? (around ++ segments.map Text.lower) := by
  rw [Catalogue.entryAt, placed.functions, List.append_assoc, ← map_lower_eq nonempty]
  rfl

/-- The function that a name denotes is the one that it calls. -/
theorem denoted_eq (placed : Placed roots owner outer path catalogue state reading)
    (around : Path) (name : List Char) :
    catalogue.denoted .function around name = reading.called? around name := by
  unfold Catalogue.denoted State.called?
  rw [placed.entryAt_eq around (segmentsOf_ne_nil name),
    placed.entryAt_eq [] (segmentsOf_ne_nil name),
    placed.entryAt_eq [] (segmentsOf_ne_nil name.tail)]
  simp [SymbolKind.fallsBack]

/-- The scope of a call stands at the path of the call. -/
theorem scopeOf_call (placed : Placed roots owner outer around catalogue state reading)
    (distinct : KeysDistinct roots) {call : Node} (visited : Visited roots path call)
    (isCall : call.construct = .call) {scope : ScopeId}
    (located : state.registry.scopeOf owner call = .ok scope) :
    ∃ isClass, StandsAt catalogue scope path isClass := by
  unfold Registry.scopeOf at located
  split at located
  · split at located
    · rename_i recorded here found
      obtain rfl := Except.ok.inj located
      obtain ⟨around, isClass, stands, stamped⟩ :=
        placed.records _ (List.mem_of_find?_eq_some found)
      have passed := List.find?_some found
      have same : recorded.key = call.key := of_decide_eq_true passed
      have recordedCall : recorded.construct = .call := by
        rw [← isCall, Node.construct, Node.construct, Node.kind, Node.kind]
        exact congrArg (fun key => Construct.ofKind key.kind) same
      obtain rfl := distinct.eq_of_key_eq (stamped.occurs_of_call recordedCall) visited.occurs same
      obtain rfl := stamped.path_of_call distinct.nodup visited isCall
      exact ⟨isClass, stands⟩
    · cases located
  · cases located

end Placed

/-- After files of distinct nodes have been annotated without a fault, every call to
which annotation came, with a well-formed callee text, has a scope, and from there
the text finds the function that was declared last under the full name that it
denotes at the path of the call. It is unbound if there is no such function. -/
theorem callee_is_last_declaration {ends : List ScopeId} {annotator : Annotator}
    (distinct : KeysDistinct roots)
    (annotated : roots.mapM annotateProgram Annotator.start = .ok ends annotator) {call : Node}
    (visited : Visited roots path call) (isCall : call.construct = .call)
    (wellFormed : isWellFormed call.calleeName.toList = true) :
    ∃ scope, annotator.registry.scopeOf annotator.globalScope call = .ok scope ∧
      Finds (annotator.registry.resolveFunction scope call.calleeName)
        ((readFiles roots).called? path call.calleeName.toList) := by
  obtain ⟨catalogue, placed⟩ := annotated_placed annotated
  obtain ⟨root, listed, noted⟩ := visited.noted
  obtain ⟨scope, located⟩ := (scopeOf_iff_noted annotated call).2 ⟨root, listed, call, noted, rfl⟩
  obtain ⟨_, place, found, rfl, -⟩ := placed.scopeOf_call distinct visited isCall located
  have finds := placed.catalogued.resolveSymbol_finds found .function wellFormed
  rw [placed.denoted_eq] at finds
  exact ⟨scope, located, finds⟩

/-- A call like `f()`. -/
def shortCall (start : Nat) : Tree :=
  .node "function_call_expression" true start (start + 3) "" [
    .node "name" true start (start + 1) "function" [],
    .node "arguments" true (start + 1) (start + 3) "arguments" []]

/-- A definition like `function f() \x7b\x7d`. -/
def shortFunction (start : Nat) : Tree :=
  .node "function_definition" true start (start + 15) "" [
    .node "name" true (start + 9) (start + 10) "name" [],
    .node "formal_parameters" true (start + 10) (start + 12) "parameters" [],
    .node "compound_statement" true (start + 13) (start + 15) "body" []]

/-- The definition `namespace A;` in `spreadFiles`. -/
def openedNamespace : Tree :=
  .node "namespace_definition" true 6 18 "" [.node "namespace_name" true 16 17 "name" []]

/-- The file `<?php namespace A; function f() \x7b\x7d f(); g(); h();`. -/
def firstFile : Node :=
  let statement (start : Nat) : Tree :=
    .node "expression_statement" true start (start + 4) "" [shortCall start]
  ⟨⟨"first.php", "<?php namespace A; function f() \x7b\x7d f(); g(); h();".toUTF8⟩,
    .node "program" true 0 49 "" [
      openedNamespace, shortFunction 19, statement 35, statement 40, statement 45]⟩

/-- The file `<?php namespace a \x7b function F() \x7b\x7d \x7d
namespace \x7b function g() \x7b\x7d \x7d`. -/
def secondFile : Node :=
  ⟨⟨"second.php", ("<?php namespace a \x7b function F() \x7b\x7d \x7d " ++
      "namespace \x7b function g() \x7b\x7d \x7d").toUTF8⟩,
    .node "program" true 0 67 "" [
      .node "namespace_definition" true 6 37 "" [
        .node "namespace_name" true 16 17 "name" [],
        .node "compound_statement" true 18 37 "body" [shortFunction 20]],
      .node "namespace_definition" true 38 67 "" [
        .node "compound_statement" true 48 67 "body" [shortFunction 50]]]⟩

/-- Two files, in which a namespace is spelled in two ways. -/
def spreadFiles : List Node := [firstFile, secondFile]

/-- The calls of the first file stand in the namespace that it opens. -/
theorem visited_shortCall {start : Nat} (listed : start ∈ [35, 40, 45]) :
    Visited spreadFiles (namespacePath [] (firstFile.withTree openedNamespace))
      (firstFile.withTree (shortCall start)) := by
  let statement := firstFile.withTree
    (.node "expression_statement" true start (start + 4) "" [shortCall start])
  have inFile : (namespacePath [] (firstFile.withTree openedNamespace), statement) ∈
      placedParts [] firstFile := by
    simp only [List.mem_cons, List.not_mem_nil, or_false] at listed
    rcases listed with rfl | rfl | rfl
    · exact List.mem_of_getElem? (i := 2) rfl
    · exact List.mem_of_getElem? (i := 3) rfl
    · exact List.mem_of_getElem? (i := 4) rfl
  have file : Visited spreadFiles [] firstFile := .file (List.mem_cons_self ..)
  apply (file.part inFile).part
  exact List.mem_of_getElem? (i := 0) rfl

theorem spreadFiles_distinct : KeysDistinct spreadFiles := by
  unfold KeysDistinct
  decide +kernel

/-- What a name calls in the namespace of the first file. -/
def calledInFirst (name : String) : Option Node :=
  (readFiles spreadFiles).called?
    (namespacePath [] (firstFile.withTree openedNamespace)) name.toList

theorem calledInFirst_eq :
    (calledInFirst "f").map Node.key = some ⟨20, 35, "function_definition", "second.php"⟩ ∧
      (calledInFirst "g").map Node.key = some ⟨50, 65, "function_definition", "second.php"⟩ ∧
      (calledInFirst "h").isNone = true := by
  decide +kernel

/-- The call `f()` finds the function of the second file, although the first one
declares its own before; `g()` falls back to the global function; and `h()` finds
nothing. -/
theorem callee_is_last_declaration_spread :
    let scopeAt (annotator : Annotator) (start : Nat) : Except Fault ScopeId :=
      annotator.registry.scopeOf annotator.globalScope (firstFile.withTree (shortCall start))
    ∃ ends annotator, spreadFiles.mapM annotateProgram Annotator.start = .ok ends annotator ∧
      (∃ scope node, scopeAt annotator 35 = .ok scope ∧
        annotator.registry.resolveFunction scope "f" = .ok node ∧
        node.key = ⟨20, 35, "function_definition", "second.php"⟩) ∧
      (∃ scope node, scopeAt annotator 40 = .ok scope ∧
        annotator.registry.resolveFunction scope "g" = .ok node ∧
        node.key = ⟨50, 65, "function_definition", "second.php"⟩) ∧
      ∃ scope name place, scopeAt annotator 45 = .ok scope ∧
        annotator.registry.resolveFunction scope "h" = .error (.unbound name place) := by
  have ran : passes (fun _ _ => true)
      (spreadFiles.mapM annotateProgram Annotator.start) = true := by decide +kernel
  obtain ⟨ends, annotator, outcome, -⟩ := exists_of_passes ran
  have finds (start : Nat) (name : String) (listed : start ∈ [35, 40, 45])
      (text : (firstFile.withTree (shortCall start)).calleeName = name)
      (wellFormed : isWellFormed name.toList = true) :
      ∃ scope, annotator.registry.scopeOf annotator.globalScope
          (firstFile.withTree (shortCall start)) = .ok scope ∧
        Finds (annotator.registry.resolveFunction scope name) (calledInFirst name) := by
    subst text
    exact callee_is_last_declaration spreadFiles_distinct outcome
      (visited_shortCall listed) rfl wellFormed
  obtain ⟨inner, global, missing⟩ := calledInFirst_eq
  refine ⟨ends, annotator, outcome, ?_, ?_, ?_⟩
  · obtain ⟨scope, located, found⟩ :=
      finds 35 "f" (by decide) (by decide +kernel) (by decide +kernel)
    obtain ⟨node, called, key⟩ := Option.map_eq_some_iff.1 inner
    exact ⟨scope, node, located, found.eq_ok called, key⟩
  · obtain ⟨scope, located, found⟩ :=
      finds 40 "g" (by decide) (by decide +kernel) (by decide +kernel)
    obtain ⟨node, called, key⟩ := Option.map_eq_some_iff.1 global
    exact ⟨scope, node, located, found.eq_ok called, key⟩
  · obtain ⟨scope, located, found⟩ :=
      finds 45 "h" (by decide) (by decide +kernel) (by decide +kernel)
    rw [Option.isNone_iff_eq_none.1 missing] at found
    obtain ⟨name, place, unbound⟩ := found
    exact ⟨scope, name, place, located, unbound⟩

end PhpTaint.Annotation

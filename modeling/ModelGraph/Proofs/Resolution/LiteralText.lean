import ModelGraph.Proofs.Document.NormalChunk
import ModelGraph.Proofs.Resolution.Entering

/-! # The text of literals

What a document says between quotes is for its readers: the registry is the same when a literal is
emptied (`resolve_of_emptied`). Literals have to be closed, and no three quotes may stand inside a
block string, not even behind a backslash: the reader of lexemes goes on there, but for the
recogniser of trivia the string ends. -/

namespace ModelGraph.Document

/-- A document in which one literal is emptied. Two quotes are a literal only if no third follows
them. -/
inductive Emptied (document : List Char) : List Char → Prop
  | line {before after : List Lexeme} {content : List Char} (hcontent : LineContent content)
      (hlexemes : lexemes document = before ++ .quoted ('"' :: (content ++ ['"'])) :: after)
      (hafter : (written after).head? ≠ some '"') :
      Emptied document (written before ++ (['"', '"'] ++ written after))
  | block {before after : List Lexeme} {content : List Char} (hcontent : BlockContent content)
      (hlexemes : lexemes document =
        before ++ .quoted (blockQuotes ++ content ++ blockQuotes) :: after) :
      Emptied document (written before ++ (blockQuotes ++ blockQuotes ++ written after))

/-- One closed literal may stand for another in a row, if it ends where the row goes on. -/
theorem Plain.exchange {before after : List Lexeme} {literal other : List Char}
    (h : Plain (before ++ .quoted literal :: after)) (hclosed : Closed other)
    (hends : (Lexeme.quoted other).Ends (written after)) (hfirst : EndsAtFirstQuotes other) :
    Plain (before ++ .quoted other :: after) := by
  obtain ⟨hbefore, hrest⟩ := h.lexed.append_inv
  obtain _ | ⟨hliteral, -, hafter⟩ := hrest
  -- a literal begins with a quote, so what stands before it ends where it did
  have hquote : ∀ {text : List Char}, Complete text →
      (written (.quoted text :: after) ++ []).head? = some '"' := by
    intro text htext
    cases htext <;> rfl
  constructor
  · refine .append (hbefore.of_head? ?_) (.cons hclosed.complete ?_ hafter)
    · rw [hquote hliteral, hquote hclosed.complete]
      exact fun c hc => hc
    · rwa [List.append_nil]
  · intro text hmem
    rcases List.mem_append.1 hmem with hmem | hmem
    · exact h.literals text (List.mem_append_left _ hmem)
    · rcases List.mem_cons.1 hmem with heq | hmem
      · cases heq
        exact ⟨hclosed, hfirst⟩
      · exact h.literals text (List.mem_append_right _ (List.mem_cons_of_mem _ hmem))

/-- With a literal emptied a document has the same lexemes but for that one. -/
theorem Emptied.alike {document other : List Char} (h : Emptied document other)
    (hdocument : Plain (lexemes document)) :
    Plain (lexemes other) ∧ List.Forall₂ Lexeme.Alike (lexemes document) (lexemes other) := by
  have hexchange : ∀ {before after : List Lexeme} {literal empty : List Char},
      lexemes document = before ++ .quoted literal :: after →
      Plain (before ++ .quoted empty :: after) →
      Plain (lexemes (written before ++ (empty ++ written after))) ∧
        List.Forall₂ Lexeme.Alike (lexemes document)
          (lexemes (written before ++ (empty ++ written after))) := by
    intro before after literal empty hlexemes hempty
    have hread : lexemes (written before ++ (empty ++ written after)) =
        before ++ .quoted empty :: after := by
      have hwritten := hempty.lexed.lexemes_written
      simpa [written, Lexeme.text] using hwritten
    rw [hread, hlexemes]
    exact ⟨hempty, List.rel_append (alike_rows_refl before)
      (.cons (.literals literal empty) (alike_rows_refl after))⟩
  cases h with
  | line hcontent hlexemes hafter =>
      rw [hlexemes] at hdocument
      refine hexchange hlexemes (hdocument.exchange (.line .nil) ?_ ?_)
      · rintro c hc - rfl
        exact hafter hc
      · exact endsAtFirstQuotes_of_length_le (by decide)
  | block hcontent hlexemes =>
      rw [hlexemes] at hdocument
      refine hexchange hlexemes (hdocument.exchange (.block .nil) ?_ ?_)
      · exact fun c hc htwo => by cases htwo
      · exact endsAtFirstQuotes_of_length_le (by decide)

end ModelGraph.Document

namespace ModelGraph

open Document

/-- What a chunk declares depends on its normal form. -/
theorem Declaration.ofChunk?_congr {chunk other : String} (h : normalize chunk = normalize other) :
    ofChunk? chunk = ofChunk? other := by
  rw [ofChunk?, ofChunk?, h]

theorem Declaration.map_ofChunk?_congr {chunks others : List String}
    (h : List.Forall₂ (fun chunk other => normalize chunk = normalize other) chunks others) :
    chunks.map ofChunk? = others.map ofChunk? := by
  induction h with
  | nil => rfl
  | cons hnormal _ ih => rw [List.map_cons, List.map_cons, ofChunk?_congr hnormal, ih]

/-- Documents that differ in nothing but the text of comments and literals are split into chunks of
the same normal forms. -/
theorem Settings.chunks_alike (settings : Settings) {document other : String}
    (h : List.Forall₂ Lexeme.Alike (lexemes document.toList) (lexemes other.toList))
    (hdocument : Plain (lexemes document.toList)) (hother : Plain (lexemes other.toList)) :
    List.Forall₂ (fun chunk chunk' => normalize chunk = normalize chunk')
      (settings.chunks document) (settings.chunks other) := by
  have hkept := keptChunks_alike (Resolver.ofSettings settings).splitter h hdocument hother
  apply List.forall₂_map_left_iff.2
  apply List.forall₂_map_right_iff.2
  apply hkept.imp
  intro chunk chunk' hnormal
  simp only [normalize, String.toList_ofList, hnormal]

/-- The text of literals never reaches a registry. -/
theorem resolve_of_emptied {document other : String} {settings : Settings} {registry : Registry}
    (hclosed : ∀ literal, .quoted literal ∈ lexemes document.toList → Closed literal)
    (hquotes : ∀ literal, .quoted literal ∈ lexemes document.toList → EndsAtFirstQuotes literal)
    (hemptied : Emptied document.toList other.toList)
    (h : resolve document settings = .ok registry) :
    resolve other settings = .ok registry := by
  have hplain : Plain (lexemes document.toList) :=
    plain_lexemes fun literal hmem => ⟨hclosed literal hmem, hquotes literal hmem⟩
  obtain ⟨hother, halike⟩ := hemptied.alike hplain
  have hdeclared := Declaration.map_ofChunk?_congr (settings.chunks_alike halike hplain hother)
  obtain ⟨start, declarations, last, hstart, hd, hlast, hregistry⟩ := resolve_eq_ok_iff.1 h
  exact resolve_eq_ok_iff.2
    ⟨start, declarations, last, hstart, hdeclared.symm.trans hd, hlast, hregistry⟩

/-- A quote behind a backslash and what looks like a field, in a literal. -/
theorem resolve_of_emptied_description :
    resolve "type A \x7b \"\" id: ID \x7d" {} = .ok
      { entities :=
          [ { definition := ⟨"A", "A", ""⟩
              body := .record [.typed ⟨"id", "id"⟩ (.scalar .id) false] } ]
        positions := [("A", 0)] } := by
  have hlexemes : lexemes "type A \x7b \"\\\"b:\" id: ID \x7d".toList =
      [.word "type".toList, .single ' ', .word "A".toList, .single ' ', .single '\x7b',
        .single ' '] ++ .quoted ('"' :: (['\\', '"', 'b', ':'] ++ ['"'])) ::
      [.single ' ', .word "id".toList, .single ':', .single ' ', .word "ID".toList, .single ' ',
        .single '\x7d'] := by
    decide +kernel
  have hcontent : LineContent ['\\', '"', 'b', ':'] :=
    .escaped (by decide) (.plain (by decide) (by decide) (by decide)
      (.plain (by decide) (by decide) (by decide) .nil))
  have honly : ∀ literal,
      .quoted literal ∈ lexemes "type A \x7b \"\\\"b:\" id: ID \x7d".toList →
        literal = '"' :: (['\\', '"', 'b', ':'] ++ ['"']) := by
    intro literal hmem
    rw [hlexemes] at hmem
    simpa using hmem
  have hemptied : Emptied "type A \x7b \"\\\"b:\" id: ID \x7d".toList
      "type A \x7b \"\" id: ID \x7d".toList :=
    .line hcontent hlexemes (by decide)
  refine resolve_of_emptied (fun literal hmem => ?_) (fun literal hmem => ?_) hemptied
    (resolve_eq_ok_of_toOption (by decide +kernel))
  · rw [honly literal hmem]
    exact .line hcontent
  · rw [honly literal hmem]
    exact endsAtFirstQuotes_of_length_le (by decide)

-- Three quotes behind a backslash: the text between the next two becomes a field.
example :
    (resolve "type A \x7b \"\"\"one \\\"\"\" b: Int \\\"\"\" two\"\"\" id: ID \x7d"
        {}).toOption.map (fun registry => registry.entities.map (·.body.fields.map Field.ident)) =
      some [["b", "id"]] := by
  decide +kernel

end ModelGraph

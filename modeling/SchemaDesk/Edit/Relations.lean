import SchemaDesk.Edit.Tables

/-!
# Edits of relations

A relation can only be added between columns that exist.  Adding and deleting relations keeps the
foreign-key flags of their source columns up to date.
-/

namespace SchemaDesk.Edit

/-- The columns that a new relation joins. -/
structure Ends where
  sourceTableId : Value
  sourceColumnId : Value
  targetTableId : Value
  targetColumnId : Value
  deriving DecidableEq, Repr

/-- The kind and the actions of a new relation. -/
structure RelationOptions where
  type : Value := RelationKind.oneToMany.name
  onDelete : Value := ReferentialAction.cascade.name
  onUpdate : Value := ReferentialAction.cascade.name
  deriving DecidableEq, Repr

/-- Adds a relation. -/
def addRelation (ends : Ends) (options : RelationOptions) (patch : Patch) : Edit Relation :=
  fun p => do
    ofExcept (refuseArguments Relation.endFields patch)
    let source ← ofExcept (requireTable p ends.sourceTableId .sourceTable)
    let _ ← ofExcept (requireColumn source ends.sourceColumnId .sourceColumn)
    let target ← ofExcept (requireTable p ends.targetTableId .targetTable)
    let _ ← ofExcept (requireColumn target ends.targetColumnId .targetColumn)
    ofExcept (checkChoice options.type .relationKind .relationKind)
    ofExcept (checkChoice options.onDelete .action .deleteAction)
    ofExcept (checkChoice options.onUpdate .action .updateAction)
    ofExcept (checkFields patch
      (fieldsWithout Relation.fields ["id", "type", "on_delete", "on_update"]) .addRelation)
    let id ← mint
    let relation := Field.patched Relation.fields patch
      { id := id, sourceTableId := ends.sourceTableId, sourceColumnId := ends.sourceColumnId,
        targetTableId := ends.targetTableId, targetColumnId := ends.targetColumnId,
        type := options.type, onDelete := options.onDelete, onUpdate := options.onUpdate }
    ofExcept (requireKeys (relation.sourceIds ++ columnKeys p.tables))
    pure (relation, some
      { p with
        tables := Flags.mark [relation] p.tables, relations := p.relations ++ [relation] })

/-- Deletes a relation, if it exists. -/
def deleteRelation (id : Value) : Edit Unit := fun p => do
  let removed := p.relations.filter (·.id.equals id)
  let remaining := p.relations.filter (!·.id.equals id)
  if removed.isEmpty then pure ((), none)
  else
    ofExcept (checkRelease removed remaining p.tables)
    pure ((), some
      { p with tables := Flags.release removed remaining p.tables, relations := remaining })

end SchemaDesk.Edit

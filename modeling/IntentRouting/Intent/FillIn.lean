import IntentRouting.Intent.Bundle

/-!
# Filling in

An intent is completed from a template. A field is taken from the template if the template sets it
and the intent does not, or if the caller allows it to be overwritten. Data and type count as one
field. The component and the selector are only ever taken when they are allowed, and neither a
package nor a selector is taken while the other one is set. Flags add up, and extras are taken under
the names that the intent does not have.
-/

namespace IntentRouting.Intent

/-- Whether a field is taken from a template. -/
def takes (inTemplate inIntent allowed : Bool) : Bool := inTemplate && (!inIntent || allowed)

/-- A set of fields, if a condition holds. -/
def fieldsIf (condition : Bool) (fields : FillInFlags) : FillInFlags :=
  if condition then fields else .empty

def hasDataOrType (intent : Intent) : Bool := intent.data.isSome || intent.mimeType.isSome

/-- The fields taken from a template, and the intent that is completed with them. -/
def fillIn (intent template : Intent) (allow : FillInFlags) : FillInFlags × Intent :=
  let takesAction :=
    takes template.action.isSome intent.action.isSome (allow.contains FillInFlags.action)
  let takesData :=
    takes template.hasDataOrType intent.hasDataOrType (allow.contains FillInFlags.data)
  let takesIdentifier :=
    takes template.identifier.isSome intent.identifier.isSome (allow.contains FillInFlags.identifier)
  let takesCategories :=
    takes (!template.categories.isEmpty) (!intent.categories.isEmpty) (allow.contains FillInFlags.categories)
  let takesPackage :=
    takes template.package.isSome intent.package.isSome (allow.contains FillInFlags.package) &&
      intent.selector.isNone
  let package := if takesPackage then template.package else intent.package
  let takesSelector := template.selector.isSome && allow.contains FillInFlags.selector && package.isNone
  let takesClip := takes template.clip.isSome intent.clip.isSome (allow.contains FillInFlags.clipData)
  let takesComponent := template.component.isSome && allow.contains FillInFlags.component
  let takesBounds :=
    takes template.bounds.isSome intent.bounds.isSome (allow.contains FillInFlags.sourceBounds)
  (fieldsIf takesAction FillInFlags.action ∪ fieldsIf takesData FillInFlags.data ∪
      fieldsIf takesIdentifier FillInFlags.identifier ∪
      fieldsIf takesCategories FillInFlags.categories ∪
      fieldsIf takesPackage FillInFlags.package ∪ fieldsIf takesSelector FillInFlags.selector ∪
      fieldsIf takesClip FillInFlags.clipData ∪ fieldsIf takesComponent FillInFlags.component ∪
      fieldsIf takesBounds FillInFlags.sourceBounds,
    { action := if takesAction then template.action else intent.action
      data := if takesData then template.data else intent.data
      mimeType := if takesData then template.mimeType else intent.mimeType
      identifier := if takesIdentifier then template.identifier else intent.identifier
      categories := if takesCategories then template.categories else intent.categories
      package := package
      component := if takesComponent then template.component else intent.component
      selector := if takesSelector then template.selector else intent.selector
      flags := intent.flags ∪ template.flags
      extras := intent.extras.fillMissing template.extras
      clip := if takesClip then template.clip else intent.clip
      bounds := if takesBounds then template.bounds else intent.bounds })

end IntentRouting.Intent

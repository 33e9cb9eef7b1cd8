import IntentRouting.Intent.Edit
import IntentRouting.Intent.FillIn

/-!
# Changes as data

Everything that a program can do to an intent, one change at a time, so that the history of an
intent is a list of changes. Only a package and a selector can be refused.
-/

namespace IntentRouting

/-- One change of an intent. -/
inductive Intent.Change where
  | action (name : Option String)
  | data (uri : Option Uri)
  | normalizedData (uri : Uri)
  | type (mimeType : Option String)
  | normalizedType (mimeType : Option String)
  | dataAndType (uri : Option Uri) (mimeType : Option String)
  | normalizedDataAndType (uri : Uri) (mimeType : Option String)
  | identifier (text : Option String)
  | addCategory (category : String)
  | removeCategory (category : String)
  | package (name : Option String)
  | selector (intent : Option Intent)
  | component (name : Option Component)
  | className (package name : String)
  | flags (flags : IntentFlags)
  | addFlags (flags : IntentFlags)
  | removeFlags (flags : IntentFlags)
  | putExtra (key : String) (value : Value)
  | removeExtra (key : String)
  | clip (clip : Option Clip)
  | bounds (bounds : Option Bounds)
  | fillIn (template : Intent) (allow : FillInFlags)
  | cloneFilter
  | matchingView

namespace Intent

def apply (intent : Intent) : Change → Except Conflict Intent
  | .action action => .ok { intent with action }
  | .data uri => .ok (intent.setData uri)
  | .normalizedData uri => .ok (intent.setData (some uri.normalizeScheme))
  | .type mimeType => .ok (intent.setType mimeType)
  | .normalizedType mimeType => .ok (intent.setType (mimeType.map Mime.normalize))
  | .dataAndType uri mimeType => .ok (intent.setDataAndType uri mimeType)
  | .normalizedDataAndType uri mimeType =>
      .ok (intent.setDataAndType (some uri.normalizeScheme) (mimeType.map Mime.normalize))
  | .identifier identifier => .ok { intent with identifier }
  | .addCategory category => .ok (intent.addCategory category)
  | .removeCategory category => .ok (intent.removeCategory category)
  | .package package => intent.setPackage package
  | .selector selector => intent.setSelector selector
  | .component component => .ok { intent with component }
  | .className package name => .ok { intent with component := some (.of package name) }
  | .flags flags => .ok { intent with flags }
  | .addFlags flags => .ok (intent.addFlags flags)
  | .removeFlags flags => .ok (intent.removeFlags flags)
  | .putExtra key value => .ok (intent.putExtra key value)
  | .removeExtra key => .ok { intent with extras := intent.extras.erase key }
  | .clip clip => .ok { intent with clip }
  | .bounds bounds => .ok { intent with bounds }
  | .fillIn template allow => .ok (intent.fillIn template allow).2
  | .cloneFilter => .ok intent.cloneFilter
  | .matchingView => .ok intent.matchingView

end Intent

end IntentRouting

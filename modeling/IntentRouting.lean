import IntentRouting.Command
import IntentRouting.Command.Arguments
import IntentRouting.Content.Gateway
import IntentRouting.Content.Operation
import IntentRouting.Event
import IntentRouting.Intent.Change
import IntentRouting.Intent.Same
import IntentRouting.Main
import IntentRouting.Manifest.Document
import IntentRouting.Permission.Dispatch
import IntentRouting.Permission.History
import IntentRouting.Proofs.Permission.Access
import IntentRouting.Proofs.Permission.Search
import IntentRouting.Proofs.Permission.Delegation
import IntentRouting.Proofs.Permission.Invariant
import IntentRouting.Proofs.Permission.Provenance
import IntentRouting.Proofs.Permission.Restart
import IntentRouting.Proofs.Permission.Revision
import IntentRouting.Proofs.Permission.Rollback
import IntentRouting.Proofs.Permission.Soundness
import IntentRouting.Proofs.Uri.Beneath
import IntentRouting.Proofs.Uri.Reading
import IntentRouting.Proofs.Permission.Mirror
import IntentRouting.Proofs.Permission.Locality
import IntentRouting.Proofs.Permission.Sharding
import IntentRouting.Proofs.Permission.Commuting
import IntentRouting.Proofs.Permission.Revocation
import IntentRouting.Proofs.Permission.Scope
import IntentRouting.Proofs.Permission.Session
import IntentRouting.Proofs.Permission.Quota
import IntentRouting.Proofs.Permission.Release
import IntentRouting.Proofs.Permission.Atomicity
import IntentRouting.Proofs.Permission.Announcement
import IntentRouting.Proofs.Filter.Acceptance
import IntentRouting.Proofs.Filter.Glob
import IntentRouting.Proofs.Filter.Escape
import IntentRouting.Proofs.Registry.Contents
import IntentRouting.Proofs.Intent.Exclusive
import IntentRouting.Proofs.Resolver.Ranking
import IntentRouting.Proofs.Resolver.Selector
import IntentRouting.Proofs.Resolver.Narrowing
import IntentRouting.Proofs.Resolver.Preference
import IntentRouting.Proofs.Resolver.Disabling
import IntentRouting.Proofs.Text.Cutting
import IntentRouting.Proofs.Text.Utf8
import IntentRouting.Proofs.Number.Digits
import IntentRouting.Proofs.Uri.Escapes
import IntentRouting.Proofs.Uri.Grammar
import IntentRouting.Proofs.Intent.Building
import IntentRouting.Proofs.Intent.Filling
import IntentRouting.Proofs.Intent.Codec
import IntentRouting.Proofs.Intent.Link
import IntentRouting.Proofs.Intent.Entries
import IntentRouting.Proofs.Intent.RoundTrip
import IntentRouting.Proofs.Intent.Shrinking
import IntentRouting.Proofs.Intent.Legible
import IntentRouting.Proofs.Intent.AppLink
import IntentRouting.Proofs.Uri.Hierarchy
import IntentRouting.Proofs.Intent.Itinerary
import IntentRouting.Proofs.Permission.Delivery
import IntentRouting.Proofs.Permission.Hyperlink
import IntentRouting.Proofs.Content.Mediation
import IntentRouting.Proofs.Content.Streaming
import IntentRouting.Proofs.Text.Lenient
import IntentRouting.Proofs.Uri.Descent
import IntentRouting.Proofs.Uri.Appending
import IntentRouting.Proofs.Uri.Endpoint
import IntentRouting.Proofs.Mime.Overlap
import IntentRouting.Proofs.Intent.Flattening
import IntentRouting.Proofs.Uri.Acceptance
import IntentRouting.Proofs.Manifest.Combination
import IntentRouting.Proofs.Xml.Forest
import IntentRouting.Proofs.Manifest.Declarations
import IntentRouting.Proofs.Manifest.Nesting
import IntentRouting.Proofs.Json.Tokens
import IntentRouting.Proofs.Json.Layout
import IntentRouting.Proofs.Json.Record
import IntentRouting.Proofs.Flags.Text
import IntentRouting.Proofs.Intent.Genuine
import IntentRouting.Proofs.Intent.Crafting
import IntentRouting.Proofs.Intent.Document
import IntentRouting.Proofs.Permission.Listing

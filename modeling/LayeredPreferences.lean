import LayeredPreferences.Database.Listing
import LayeredPreferences.Http.Api
import LayeredPreferences.Startup
import LayeredPreferences.Store.Memory
import LayeredPreferences.Proofs.Definition
import LayeredPreferences.Proofs.Http.Reached
import LayeredPreferences.Proofs.Http.WriteBack
import LayeredPreferences.Proofs.Service.History
import LayeredPreferences.Proofs.Service.Listing
import LayeredPreferences.Proofs.Service.Refusal
import LayeredPreferences.Proofs.Service.Demand
import LayeredPreferences.Proofs.Service.Agreement
import LayeredPreferences.Proofs.Store.Frame
import LayeredPreferences.Proofs.Service.Independence
import LayeredPreferences.Proofs.Service.Steady
import LayeredPreferences.Proofs.Text.Percent
import LayeredPreferences.Proofs.Http.Routing
import LayeredPreferences.Proofs.Http.Envelope
import LayeredPreferences.Proofs.Json.Suffix
import LayeredPreferences.Proofs.Startup
import LayeredPreferences.Proofs.Registry.Indexed
import LayeredPreferences.Proofs.Store.Integrity
import LayeredPreferences.Proofs.Store.Texts
import LayeredPreferences.Proofs.Service.Typing
import LayeredPreferences.Proofs.Definition.Draft
import LayeredPreferences.Proofs.Definition.Edits
import LayeredPreferences.Proofs.Definition.LastWord
import LayeredPreferences.Proofs.Validation
import LayeredPreferences.Proofs.Number.Arithmetic
import LayeredPreferences.Proofs.Number.Digits
import LayeredPreferences.Proofs.Number.Exact
import LayeredPreferences.Proofs.Http.Identity
import LayeredPreferences.Proofs.Http.Numbers
import LayeredPreferences.Proofs.Service.Floats
import LayeredPreferences.Proofs.Service.Switches
import LayeredPreferences.Proofs.Http.Reals
import LayeredPreferences.Proofs.Database.Calendar
import LayeredPreferences.Proofs.Database.Encoding
import LayeredPreferences.Proofs.Database.Image
import LayeredPreferences.Proofs.Database.Listing
import LayeredPreferences.Proofs.Database.Numeral
import LayeredPreferences.Proofs.Database.Opening
import LayeredPreferences.Proofs.Database.Search
import LayeredPreferences.Proofs.Database.Tree

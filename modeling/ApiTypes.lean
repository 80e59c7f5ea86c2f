import ApiTypes.Main
import ApiTypes.Proofs.DefinitionReferences
import ApiTypes.Proofs.Delivery
import ApiTypes.Proofs.Dialects
import ApiTypes.Proofs.Enumerations
import ApiTypes.Proofs.Extension
import ApiTypes.Proofs.Formatting
import ApiTypes.Proofs.Grouping
import ApiTypes.Proofs.Json.Reading
import ApiTypes.Proofs.Layout
import ApiTypes.Proofs.Meaning
import ApiTypes.Proofs.Naming
import ApiTypes.Proofs.OperationNames
import ApiTypes.Proofs.ParameterOrder
import ApiTypes.Proofs.Rendering
import ApiTypes.Proofs.Schema.Flattening
import ApiTypes.Proofs.Schema.Formed
import ApiTypes.Proofs.Schema.MemoryLookup
import ApiTypes.Proofs.Schema.Order
import ApiTypes.Proofs.Schema.Paths
import ApiTypes.Proofs.Settings
import ApiTypes.Proofs.TypeScript.Bodies
import ApiTypes.Proofs.TypeScript.Depth
import ApiTypes.Proofs.TypeScript.Literals
import ApiTypes.Proofs.TypeScript.Nesting
import ApiTypes.Proofs.TypeScript.Repetition

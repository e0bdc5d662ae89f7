import EntityService.Config.Writer
import EntityService.Http.Service
import EntityService.Proofs.Aliases
import EntityService.Proofs.AnsweredRows
import EntityService.Proofs.Assignments
import EntityService.Proofs.Bounds
import EntityService.Proofs.Building
import EntityService.Proofs.CamelCase
import EntityService.Proofs.Comparison
import EntityService.Proofs.Composition
import EntityService.Proofs.Confinement
import EntityService.Proofs.ContainedText
import EntityService.Proofs.CountedRelations
import EntityService.Proofs.DeclaredRows
import EntityService.Proofs.Deletion
import EntityService.Proofs.Dialogue
import EntityService.Proofs.Exposure
import EntityService.Proofs.Extents
import EntityService.Proofs.FailedRequests
import EntityService.Proofs.FiniteData
import EntityService.Proofs.FreshKeys
import EntityService.Proofs.Handling
import EntityService.Proofs.Hiding
import EntityService.Proofs.IgnoredParts
import EntityService.Proofs.Inclusions
import EntityService.Proofs.Insertions
import EntityService.Proofs.IntegerOrder
import EntityService.Proofs.LoadedForest
import EntityService.Proofs.Lookup
import EntityService.Proofs.LooseEquality
import EntityService.Proofs.LowerCase
import EntityService.Proofs.Narrowing
import EntityService.Proofs.NearestIntegers
import EntityService.Proofs.Normalization
import EntityService.Proofs.Paging
import EntityService.Proofs.Parameters
import EntityService.Proofs.Patching
import EntityService.Proofs.Permissions
import EntityService.Proofs.Placeholders
import EntityService.Proofs.Quoting
import EntityService.Proofs.ReadBack
import EntityService.Proofs.Redaction
import EntityService.Proofs.References
import EntityService.Proofs.RelationPaths
import EntityService.Proofs.RemovalByKey
import EntityService.Proofs.Rendering
import EntityService.Proofs.ReportedRemovals
import EntityService.Proofs.Reset
import EntityService.Proofs.Resolution
import EntityService.Proofs.RowShapes
import EntityService.Proofs.SelectItems
import EntityService.Proofs.SelectList
import EntityService.Proofs.SelectText
import EntityService.Proofs.SnakeCase
import EntityService.Proofs.SortDirectives
import EntityService.Proofs.Sparing
import EntityService.Proofs.Spellings
import EntityService.Proofs.StoredRows
import EntityService.Proofs.Suffixes
import EntityService.Proofs.Trichotomy
import EntityService.Proofs.TruthValues
import EntityService.Proofs.Updating
import EntityService.Sql.Bind
import EntityService.Store.Database
import EntityService.Store.Related
import EntityService.Store.Noted
